import Delegation.Config.Matchers
import Delegation.Proofs.Source.Acceptance
import Delegation.Proofs.Source.LineLexing

namespace Delegation

def Token.relined (g : Nat → Nat) (t : Token) : Token :=
  { t with position := ⟨g t.position.line, t.position.column⟩ }

def Statement.down (n : Nat) (s : Statement) : Statement := s.withLine (s.line + n)

namespace Grammar

section Newlines

variable {α : Type} {ks : List TokenKind} {kind : TokenKind} {a : α} {strict : Bool}

theorem notMem_one {make : TokenKind → Option α} (hmake : make kind = none)
    (h : SpellsOne make ks a) : kind ∉ ks := by
  obtain ⟨k, rfl, hk⟩ := h
  rw [List.mem_singleton]
  rintro rfl
  rw [hmake] at hk
  cases hk

theorem notMem_path {first? segment? : TokenKind → Option (List Char)} {path : String}
    (hdot : kind ≠ .dot) (hfirst : first? kind = none) (hsegment : segment? kind = none)
    (h : SpellsPath first? segment? ks path) : kind ∉ ks := by
  obtain ⟨k, ks', first, more, rfl, hk, hdotted, -⟩ := h
  have hmore : kind ∉ ks' := by
    induction hdotted with
    | nil => exact List.not_mem_nil
    | @cons k' ks' s ss hk' _ ih =>
      have hone : kind ∉ [k'] := notMem_one hsegment ⟨k', rfl, hk'⟩
      simpa using ⟨hdot, List.ne_of_not_mem_cons hone, ih⟩
  have hone : kind ∉ [k] := notMem_one hfirst ⟨k, rfl, hk⟩
  exact List.not_mem_cons_of_ne_of_not_mem (List.ne_of_not_mem_cons hone) hmore

mutual

theorem LiteralTree.newline_notMem (t : LiteralTree) : .newline ∉ t.kinds := by
  cases t with
  | scalar leaf => exact notMem_one rfl leaf.spelled
  | array items => simp [LiteralTree.kinds, items.newline_notMem]

theorem ItemTrees.newline_notMem (ts : ItemTrees) : .newline ∉ ts.kinds := by
  cases ts with
  | last item => exact item.newline_notMem
  | more item rest => simp [ItemTrees.kinds, item.newline_notMem, rest.newline_notMem]

end

theorem newline_notMem_severity {severity : Severity} (h : SpellsSeverity ks severity) :
    .newline ∉ ks := by
  rcases h with ⟨rfl, -⟩ | ⟨level, rfl, -⟩
  · exact List.not_mem_nil
  · simp

theorem newline_notMem_quantity {n : Nat} (h : SpellsQuantity ks n) : .newline ∉ ks := by
  obtain ⟨x, m, rfl, -⟩ := h
  simp

theorem newline_notMem_action {action : String} (h : SpellsAction ks action) : .newline ∉ ks :=
  notMem_path nofun rfl rfl h

theorem LimitTree.newline_notMem (t : LimitTree strict) : .newline ∉ t.kinds := by
  simp [kinds, newline_notMem_action t.action.spelled, newline_notMem_quantity t.count.spelled,
    newline_notMem_quantity t.amount.spelled, newline_notMem_severity t.severity.spelled]

variable [Matchers]

mutual

theorem DisjunctionTree.newline_notMem (d : DisjunctionTree) : .newline ∉ d.kinds := by
  cases d with
  | last part => exact part.newline_notMem
  | or part rest => simp [DisjunctionTree.kinds, part.newline_notMem, rest.newline_notMem]

theorem ConjunctionTree.newline_notMem (c : ConjunctionTree) : .newline ∉ c.kinds := by
  cases c with
  | last part => exact part.newline_notMem
  | and part rest => simp [ConjunctionTree.kinds, part.newline_notMem, rest.newline_notMem]

theorem OperandTree.newline_notMem (o : OperandTree) : .newline ∉ o.kinds := by
  cases o with
  | comparison field op literal takes =>
    have hfield : .newline ∉ field.kinds := notMem_path nofun rfl rfl field.spelled
    have hop : .newline ∉ op.kinds := notMem_one rfl op.spelled
    simp [OperandTree.kinds, hfield, hop, literal.newline_notMem]
  | not operand => simp [OperandTree.kinds, operand.newline_notMem]
  | parens inner => simp [OperandTree.kinds, inner.newline_notMem]

end

theorem AccessTree.newline_notMem (t : AccessTree) : .newline ∉ t.kinds := by
  have hkind : .newline ∉ t.kind.kinds := notMem_one rfl t.kind.spelled
  have hresource : .newline ∉ t.resource.kinds := notMem_one rfl t.resource.spelled.1
  have hwhen : .newline ∉ whenKinds t.condition := by
    cases t.condition with
    | none => exact List.not_mem_nil
    | some d => simp [whenKinds, d.newline_notMem]
  simp [kinds, hkind, hresource, hwhen, newline_notMem_action t.action.spelled,
    newline_notMem_severity t.severity.spelled]

theorem StatementTree.newline_notMem (t : StatementTree strict) : .newline ∉ t.kinds := by
  cases t with
  | access t => exact t.newline_notMem
  | limit t => exact t.newline_notMem

end Newlines

variable [Matchers] {options : ParseOptions} {tokens front rest : List Token} {t : Token} {s : Statement}
  {ss : List Statement} {n line : Nat} {ks : List TokenKind}

theorem SpellsLine.newline_notMem (h : SpellsLine options front s) : .newline ∉ kinds front := by
  obtain ⟨t, rest, rfl, -⟩ := id h
  obtain ⟨tree, hks, -⟩ := spellsLine_iff.1 h
  exact hks ▸ tree.newline_notMem

theorem SpellsLine.notMem (h : SpellsLine options front s) (ht : t.kind = .newline) : t ∉ front :=
  fun hmem => h.newline_notMem (ht ▸ List.mem_map_of_mem hmem)

/-- Tokens up to the end of a line and behind it spell documents of their own. -/
theorem spellsDocument_lines (ht : t.kind = .newline) :
    SpellsDocument options (front ++ t :: rest) ss ↔ ∃ ss₁ ss₂, SpellsDocument options front ss₁ ∧
      SpellsDocument options rest ss₂ ∧ ss = ss₁ ++ ss₂ := by
  constructor
  · intro h
    generalize htokens : front ++ t :: rest = tokens at h
    induction h generalizing front with
    | nil => exact absurd htokens (List.append_ne_nil_of_right_ne_nil _ (List.cons_ne_nil t rest))
    | @newline t' tokens statements ht' hrest ih =>
      cases front with
      | nil =>
        cases htokens
        exact ⟨[], statements, .nil, hrest, rfl⟩
      | cons t'' front =>
        cases htokens
        obtain ⟨ss₁, ss₂, h₁, h₂, rfl⟩ := ih rfl
        exact ⟨ss₁, ss₂, .newline ht' h₁, h₂, rfl⟩
    | last hline =>
      subst htokens
      exact absurd (List.mem_append_right _ List.mem_cons_self) (hline.notMem ht)
    | @line front' t' rest' s statements hline ht' hrest ih =>
      rcases List.append_eq_append_iff.1 htokens with ⟨more, rfl, hmore⟩ | ⟨more, rfl, hmore⟩
      · cases more with
        | nil =>
          cases hmore
          rw [List.append_nil] at hline
          exact ⟨[s], statements, .last hline, hrest, rfl⟩
        | cons t'' more =>
          cases hmore
          exact absurd (List.mem_append_right _ List.mem_cons_self) (hline.notMem ht)
      · cases more with
        | nil =>
          cases hmore
          rw [List.append_nil]
          exact ⟨[s], statements, .last hline, hrest, rfl⟩
        | cons t'' more =>
          cases hmore
          obtain ⟨ss₁, ss₂, h₁, h₂, rfl⟩ := ih rfl
          exact ⟨s :: ss₁, ss₂, .line hline ht' h₁, h₂, rfl⟩
  · rintro ⟨ss₁, ss₂, h₁, h₂, rfl⟩
    induction h₁ with
    | nil => exact .newline ht h₂
    | newline ht' _ ih => exact .newline ht' ih
    | last hline => exact .line hline ht h₂
    | line hline ht' _ ih =>
      rw [List.append_assoc]
      exact .line hline ht' ih

theorem SpellsStatement.line_eq (h : SpellsStatement options line ks s) : s.line = line := by
  cases s with
  | access kind r =>
    obtain ⟨_, _, -, -, _, _, _, _, -, -, -, -, -, hline⟩ := h
    exact hline
  | limit r =>
    obtain ⟨_, -, _, _, _, _, _, _, _, -, -, -, -, -, -, -, -, -, hline⟩ := h
    exact hline

theorem SpellsStatement.withLine (h : SpellsStatement options line ks s) (line' : Nat) :
    SpellsStatement options line' ks (s.withLine line') := by
  cases s with
  | access kind r =>
    obtain ⟨k, body, hks, hk, as, rs, ws, ss, hbody, ha, hr, hw, hs, -⟩ := h
    exact ⟨k, body, hks, hk, as, rs, ws, ss, hbody, ha, hr, hw, hs, rfl⟩
  | limit r =>
    obtain ⟨body, hks, as, x, y, unit, ss, amount, seconds, hbody, ha, hx, hy, hunit, hperiod, hmax, hzero, hs,
      -⟩ := h
    exact ⟨body, hks, as, x, y, unit, ss, amount, seconds, hbody, ha, hx, hy, hunit, hperiod, hmax, hzero, hs,
      rfl⟩

/-- Lines of tokens are told to the statements and have no other effect. -/
theorem SpellsDocument.relined (h : SpellsDocument options tokens ss) (g : Nat → Nat) :
    SpellsDocument options (tokens.map (·.relined g)) (ss.map fun s => s.withLine (g s.line)) := by
  have hline : ∀ {front s}, SpellsLine options front s →
      SpellsLine options (front.map (·.relined g)) (s.withLine (g s.line)) := by
    rintro _ s ⟨t, rest, rfl, hspells⟩
    have hkinds : kinds ((t :: rest).map (·.relined g)) = kinds (t :: rest) := List.map_map
    refine ⟨t.relined g, rest.map (·.relined g), rfl, ?_⟩
    rw [hkinds, hspells.line_eq]
    exact hspells.withLine _
  induction h with
  | nil => exact .nil
  | newline ht _ ih => exact .newline ht ih
  | last h => exact .last (hline h)
  | line h ht _ ih =>
    rw [List.map_append, List.map_cons]
    exact .line (hline h) ht ih

theorem SpellsDocument.unique {ss' : List Statement} (h : SpellsDocument options tokens ss)
    (h' : SpellsDocument options tokens ss') : ss = ss' :=
  Except.ok.inj ((statements_complete h).symm.trans (statements_complete h'))

theorem spellsDocument_down : SpellsDocument options (tokens.map (·.down n)) ss ↔
    ∃ ss', SpellsDocument options tokens ss' ∧ ss = ss'.map (·.down n) := by
  constructor
  · intro h
    have hup : (tokens.map (·.down n)).map (·.relined (· - n)) = tokens := by
      simp [Token.down, Token.relined, Position.down, Function.comp_def]
    have hss := h.relined (· - n)
    rw [hup] at hss
    exact ⟨_, hss, h.unique (hss.relined (· + n))⟩
  · rintro ⟨ss', h, rfl⟩
    exact h.relined (· + n)

theorem spellsDocument_prepend_down {stream : TokenStream} {p : Position} :
    SpellsDocument options ((stream.down n).prepend (front ++ [.lineEnd p])).tokens ss ↔
      ∃ ss₁ ss₂, SpellsDocument options front ss₁ ∧ SpellsDocument options stream.tokens ss₂ ∧
        ss = ss₁ ++ ss₂.map (·.down n) := by
  have htokens : ((stream.down n).prepend (front ++ [.lineEnd p])).tokens =
      front ++ .lineEnd p :: stream.tokens.map (·.down n) := List.append_assoc ..
  rw [htokens, spellsDocument_lines rfl]
  constructor
  · rintro ⟨ss₁, _, h₁, hdown, rfl⟩
    obtain ⟨ss₂, h₂, rfl⟩ := spellsDocument_down.1 hdown
    exact ⟨ss₁, ss₂, h₁, h₂, rfl⟩
  · rintro ⟨ss₁, ss₂, h₁, h₂, rfl⟩
    exact ⟨ss₁, _, h₁, spellsDocument_down.2 ⟨ss₂, h₂, rfl⟩, rfl⟩

end Grammar

/-- Two texts on lines after each other have a document just if each has one: the statements of the first,
and then those of the second as many lines further down as the first takes. -/
theorem parse_lines [Matchers] (options : ParseOptions) (s₁ s₂ : String) (ss : List Statement) :
    (∃ d, (parse options (s₁ ++ "\n" ++ s₂)).result = .ok d ∧ d.statements = ss) ↔
      ∃ d₁ d₂, (parse options s₁).result = .ok d₁ ∧ (parse options s₂).result = .ok d₂ ∧
        ss = d₁.statements ++ d₂.statements.map (·.down (1 + s₁.toList.count '\n')) := by
  simp only [parse_eq_ok, tokenize_lines]
  constructor
  · rintro ⟨d, ⟨_, ⟨stream₁, stream₂, hs₁, hs₂, rfl⟩, hspells⟩, rfl⟩
    obtain ⟨ss₁, ss₂, h₁, h₂, hss⟩ := Grammar.spellsDocument_prepend_down.1 hspells
    have hwell := d.wellFormed
    rw [hss, List.forall_mem_append, List.forall_mem_map] at hwell
    have hwell₂ : ∀ s ∈ ss₂, s.fault? = none := fun s hs =>
      (s.fault?_withLine _).symm.trans (hwell.2 s hs)
    exact ⟨⟨ss₁, hwell.1⟩, ⟨ss₂, hwell₂⟩, ⟨stream₁, hs₁, h₁⟩, ⟨stream₂, hs₂, h₂⟩, hss⟩
  · rintro ⟨d₁, d₂, ⟨stream₁, hs₁, h₁⟩, ⟨stream₂, hs₂, h₂⟩, rfl⟩
    have hwell₂ : ∀ s ∈ d₂.statements.map (·.down (1 + s₁.toList.count '\n')), s.fault? = none :=
      List.forall_mem_map.2 fun s hs => (s.fault?_withLine _).trans (d₂.wellFormed s hs)
    have hwell := List.forall_mem_append.2 ⟨d₁.wellFormed, hwell₂⟩
    exact ⟨⟨_, hwell⟩, ⟨_, ⟨stream₁, stream₂, hs₁, hs₂, rfl⟩,
      Grammar.spellsDocument_prepend_down.2 ⟨_, _, h₁, h₂, rfl⟩⟩, rfl⟩

example : (parse {} "permit a on *\n# the last rule\n\ndeny b on *").result.toOption.map
    (·.statements.map (·.line)) = some [1, 4] := by
  decide +kernel

end Delegation
