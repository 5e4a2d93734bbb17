import Delegation.Proofs.Source.Reading

namespace Delegation

namespace Grammar

variable {tokens rest : List Token}

theorem reads_value {cap levels : Nat} {v : Value} :
    Reads (value cap levels) tokens v rest ↔
      (∃ t, tokens = t :: rest ∧ scalar? t.kind = some v) ∨
      ∃ t n ts items u ts', levels = n + 1 ∧ tokens = t :: ts ∧ t.kind = .openBracket ∧
        v = .array items ∧ Reads (separated (value cap n) .comma) ts items ts' ∧
        Reads (token .closeBracket (.closing .closeBracket)) ts' u rest := by
  constructor
  · rintro ⟨h, hp⟩
    unfold value at hp
    split at hp
    next => cases hp
    next t ts =>
      split at hp
      next s hs =>
        cases hp
        exact .inl ⟨t, rfl, by rw [hs]; rfl⟩
      next x hx =>
        cases hp
        exact .inl ⟨t, rfl, by rw [hx]; rfl⟩
      next hb =>
        cases hp
        exact .inl ⟨t, rfl, by rw [hb]; rfl⟩
      next hb =>
        cases hp
        exact .inl ⟨t, rfl, by rw [hb]; rfl⟩
      next ht =>
        split at hp
        next => cases hp
        next n =>
          obtain ⟨⟨items, ts', h₁⟩, hitems, hp⟩ := exists_of_bind hp
          obtain ⟨⟨u, ts'', h₂⟩, hclose, hp⟩ := exists_of_bind hp
          cases hp
          exact .inr ⟨t, n, ts, items, u, ts', rfl, rfl, ht, rfl, ⟨h₁, hitems⟩, ⟨h₂, hclose⟩⟩
      next => cases hp
  · rintro (⟨t, rfl, hv⟩ | ⟨t, n, ts, items, u, ts', rfl, rfl, ht, rfl, ⟨h₁, hitems⟩, ⟨h₂, hclose⟩⟩)
    · refine ⟨by simp, ?_⟩
      unfold value
      dsimp only
      unfold scalar? at hv
      split at hv <;> cases hv
      all_goals (rename_i hk; simp only [hk])
    · refine ⟨by simp only [List.length_cons]; omega, ?_⟩
      unfold value
      dsimp only
      rw [ht]
      simp only [hitems, hclose, Bind.bind, Except.bind]
      rfl

/-- What stands between two brackets, of which the right one may follow it. -/
theorem Exact.enclosed {α : Type} {p : Production α} {spells : List TokenKind → α → Prop}
    {follow : Option TokenKind → Prop} {left right : TokenKind} {what : Wanted}
    (h : Exact (Reads p) spells follow) (hright : follow (some right)) :
    Exact (fun tokens a rest => ∃ t ts u ts', tokens = t :: ts ∧ t.kind = left ∧
        Reads p ts a ts' ∧ Reads (token right what) ts' u rest)
      (fun ks a => ∃ inner, ks = left :: (inner ++ [right]) ∧ spells inner a) Anything where
  sound := by
    rintro tokens a rest ⟨t, ts, u, ts', rfl, ht, ha, hclose⟩
    obtain ⟨front, rfl, hspells⟩ := h.sound ha
    obtain ⟨t', rfl, ht'⟩ := reads_token.1 hclose
    refine ⟨t :: (front ++ [t']), by simp, kinds front, ?_, hspells⟩
    rw [kinds_cons, kinds_append, kinds_cons, kinds_nil, ht, ht']
  complete := by
    rintro front a rest ⟨inner, hks, hspells⟩ -
    obtain ⟨t, front', rfl, ht, hks'⟩ := kinds_eq_cons hks
    obtain ⟨xs, ys, rfl, rfl, hys⟩ := kinds_eq_append hks'
    obtain ⟨t', rfl, ht'⟩ := kinds_eq_singleton hys
    have hnext : follow (next (t' :: rest)) := by
      rw [next, List.head?_cons, Option.map_some, ht']
      exact hright
    exact ⟨t, xs ++ t' :: rest, (), t' :: rest, by simp, ht, h.complete hspells hnext,
      reads_token.2 ⟨t', rfl, ht'⟩⟩

theorem array_exact {cap n : Nat} {what : Wanted} {spells : List TokenKind → Value → Prop}
    (h : Exact (Reads (value cap n)) spells Anything) :
    Exact (fun tokens v rest => ∃ t ts items u ts', tokens = t :: ts ∧ t.kind = .openBracket ∧
        v = .array items ∧ Reads (separated (value cap n) .comma) ts items ts' ∧
        Reads (token .closeBracket what) ts' u rest)
      (SpellsArray spells) Anything where
  sound := by
    rintro tokens v rest ⟨t, ts, items, u, ts', htokens, ht, rfl, hitems, hclose⟩
    have hright : Anything (some .closeBracket) ∧ some TokenKind.closeBracket ≠ some .comma :=
      ⟨trivial, nofun⟩
    obtain ⟨front, rfl, inner, hks, hspells⟩ :=
      ((h.separated trivial).enclosed hright).sound ⟨t, ts, u, ts', htokens, ht, hitems, hclose⟩
    exact ⟨front, rfl, inner, items, hks, rfl, hspells⟩
  complete := by
    rintro front v rest ⟨inner, items, hks, rfl, hspells⟩ hnext
    have hright : Anything (some .closeBracket) ∧ some TokenKind.closeBracket ≠ some .comma :=
      ⟨trivial, nofun⟩
    obtain ⟨t, ts, u, ts', htokens, ht, hitems, hclose⟩ :=
      ((h.separated trivial).enclosed hright).complete ⟨inner, hks, hspells⟩ hnext
    exact ⟨t, ts, items, u, ts', htokens, ht, rfl, hitems, hclose⟩

theorem value_exact (cap levels : Nat) :
    Exact (Reads (value cap levels)) (SpellsValue levels) Anything := by
  induction levels with
  | zero =>
    constructor
    · intro tokens v rest h
      rcases reads_value.1 h with ⟨t, rfl, hv⟩ | ⟨_, n, _, _, _, _, hn, _⟩
      · exact ⟨[t], rfl, t.kind, rfl, hv⟩
      · cases hn
    · rintro front v rest ⟨k, hks, hv⟩ -
      obtain ⟨t, rfl, rfl⟩ := kinds_eq_singleton hks
      exact reads_value.2 (.inl ⟨t, rfl, hv⟩)
  | succ n ih =>
    constructor
    · intro tokens v rest h
      rcases reads_value.1 h with ⟨t, rfl, hv⟩ | ⟨t, _, ts, items, u, ts', hn, harray⟩
      · exact ⟨[t], rfl, .inl ⟨t.kind, rfl, hv⟩⟩
      · cases hn
        obtain ⟨front, rfl, hspells⟩ := (array_exact ih).sound ⟨t, ts, items, u, ts', harray⟩
        exact ⟨front, rfl, .inr hspells⟩
    · rintro front v rest (⟨k, hks, hv⟩ | harray) hnext
      · obtain ⟨t, rfl, rfl⟩ := kinds_eq_singleton hks
        exact reads_value.2 (.inl ⟨t, rfl, hv⟩)
      · obtain ⟨t, ts, items, u, ts', hreads⟩ := (array_exact ih).complete harray hnext
        exact reads_value.2 (.inr ⟨t, n, ts, items, u, ts', rfl, hreads⟩)

theorem operator?_ne_dot {k : TokenKind} {op : Operator} (h : operator? k = some op) :
    some k ≠ some .dot := by
  rintro hk
  cases hk
  cases h

theorem Exact.joined {p q : Production Condition} {spells : List TokenKind → Condition → Prop}
    {follow : Option TokenKind → Prop} {k : Keyword} {join : List Condition → Condition}
    (h : Exact (Reads p) spells follow) (hfollow : follow (some (.keyword k)))
    (hq : ∀ tokens c rest, Reads q tokens c rest ↔
      ∃ cs, Reads (Grammar.separated p (.keyword k)) tokens cs rest ∧ c = Grammar.joined join cs) :
    Exact (Reads q) (SpellsJoined spells k join) (fun t => follow t ∧ t ≠ some (.keyword k)) where
  sound := by
    intro tokens c rest hreads
    obtain ⟨cs, hcs, rfl⟩ := (hq tokens c rest).1 hreads
    obtain ⟨front, rfl, hspells⟩ := (h.separated hfollow).sound hcs
    exact ⟨front, rfl, cs, hspells, rfl⟩
  complete := by
    rintro front c rest ⟨cs, hspells, rfl⟩ hnext
    exact (hq _ _ _).2 ⟨cs, (h.separated hfollow).complete hspells hnext, rfl⟩

theorem reads_conjunction {p : Production Condition} (tokens : List Token) (c : Condition)
    (rest : List Token) : Reads (conjunction p) tokens c rest ↔
      ∃ cs, Reads (separated p (.keyword .and)) tokens cs rest ∧ c = joined .and cs := by
  constructor
  · rintro ⟨h, hp⟩
    obtain ⟨⟨cs, ts, h₁⟩, hcs, hp⟩ := exists_of_bind hp
    cases hp
    exact ⟨cs, ⟨h, hcs⟩, rfl⟩
  · rintro ⟨cs, ⟨h, hcs⟩, rfl⟩
    refine ⟨h, ?_⟩
    simp only [conjunction, hcs, Bind.bind, Except.bind]
    rfl

theorem reads_disjunction {p : Production Condition} (tokens : List Token) (c : Condition)
    (rest : List Token) : Reads (disjunction p) tokens c rest ↔
      ∃ cs, Reads (separated (conjunction p) (.keyword .or)) tokens cs rest ∧ c = joined .or cs := by
  constructor
  · rintro ⟨h, hp⟩
    obtain ⟨⟨cs, ts, h₁⟩, hcs, hp⟩ := exists_of_bind hp
    cases hp
    exact ⟨cs, ⟨h, hcs⟩, rfl⟩
  · rintro ⟨cs, ⟨h, hcs⟩, rfl⟩
    refine ⟨h, ?_⟩
    simp only [disjunction, hcs, Bind.bind, Except.bind]
    rfl

def AfterDisjunction (k : Option TokenKind) : Prop :=
  (Anything k ∧ k ≠ some (.keyword .and)) ∧ k ≠ some (.keyword .or)

theorem Exact.disjunction {p : Production Condition} {spells : List TokenKind → Condition → Prop}
    (h : Exact (Reads p) spells Anything) :
    Exact (Reads (disjunction p)) (SpellsDisjunction spells) AfterDisjunction :=
  (h.joined trivial reads_conjunction).joined ⟨trivial, nofun⟩ reads_disjunction

variable [Matchers]

theorem reads_comparison {cap levels : Nat} {c : Condition} :
    Reads (comparison cap levels) tokens c rest ↔
      ∃ field ts op ts' v, Reads Grammar.field tokens field ts ∧
        Reads (one operator? .operator) ts op ts' ∧ Reads (value cap levels) ts' v rest ∧
        operandFault? op v = none ∧ c = .comparison field op v := by
  constructor
  · rintro ⟨h, hp⟩
    obtain ⟨⟨field, ts, h₁⟩, hfield, hp⟩ := exists_of_bind hp
    obtain ⟨⟨op, ts', h₂⟩, hop, hp⟩ := exists_of_bind hp
    obtain ⟨⟨v, ts'', h₃⟩, hv, hp⟩ := exists_of_bind hp
    dsimp only at hp
    split at hp
    next => cases hp
    next hfault =>
      cases hp
      exact ⟨field, ts, op, ts', v, ⟨h₁, hfield⟩, ⟨h₂, hop⟩, ⟨h₃, hv⟩, hfault, rfl⟩
  · rintro ⟨field, ts, op, ts', v, ⟨h₁, hfield⟩, ⟨h₂, hop⟩, ⟨h₃, hv⟩, hfault, rfl⟩
    refine ⟨by omega, ?_⟩
    simp only [comparison, hfield, hop, hv, Bind.bind, Except.bind]
    rw [hfault]
    rfl

theorem comparison_exact (cap levels : Nat) :
    Exact (Reads (comparison cap levels)) (SpellsComparison levels) Anything where
  sound := by
    intro tokens c rest h
    obtain ⟨field, ts, op, ts', v, hfield, hop, hv, hfault, rfl⟩ := reads_comparison.1 h
    obtain ⟨front, rfl, hspells⟩ := (path_exact ..).sound hfield
    obtain ⟨t, rfl, ht⟩ := reads_one.1 hop
    obtain ⟨front', rfl, hvalue⟩ := (value_exact cap levels).sound hv
    refine ⟨front ++ t :: front', by simp, kinds front, t.kind, kinds front', field, op, v, ?_, rfl,
      hspells, ht, hvalue, hfault⟩
    rw [kinds_append, kinds_cons]
  complete := by
    rintro front c rest ⟨fs, k, vs, field, op, v, hks, rfl, hfield, hop, hv, hfault⟩ hnext
    obtain ⟨xs, ys, rfl, rfl, hys⟩ := kinds_eq_append hks
    obtain ⟨t, zs, rfl, rfl, rfl⟩ := kinds_eq_cons hys
    refine reads_comparison.2 ⟨field, t :: zs ++ rest, op, zs ++ rest, v, ?_,
      reads_one.2 ⟨t, rfl, hop⟩, (value_exact cap levels).complete hv hnext, hfault, rfl⟩
    rw [List.append_assoc]
    exact (path_exact ..).complete hfield (operator?_ne_dot hop)

/-- A comparison starts with a word, which is what sets it apart from the other operands. -/
theorem exists_word_of_reads_comparison {cap levels : Nat} {c : Condition}
    (h : Reads (comparison cap levels) tokens c rest) :
    ∃ t ts name, tokens = t :: ts ∧ t.kind = .word name := by
  obtain ⟨field, ts, op, ts', v, hfield, -⟩ := reads_comparison.1 h
  obtain ⟨first, ts'', more, hfirst, -⟩ := reads_path.1 hfield
  obtain ⟨t, rfl, ht⟩ := reads_one.1 hfirst
  unfold wordText? at ht
  split at ht
  next name hname => exact ⟨t, ts'', name, rfl, hname⟩
  next => cases ht

theorem reads_operand {cap levels : Nat} {c : Condition} :
    Reads (operand cap levels) tokens c rest ↔
      Reads (comparison cap levels) tokens c rest ∨
      (∃ t n ts c', levels = n + 1 ∧ tokens = t :: ts ∧ t.kind = .keyword .not ∧ c = .not c' ∧
        Reads (operand cap n) ts c' rest) ∨
      ∃ t n ts u ts', levels = n + 1 ∧ tokens = t :: ts ∧ t.kind = .openParen ∧
        Reads (disjunction (operand cap n)) ts c ts' ∧
        Reads (token .closeParen (.closing .closeParen)) ts' u rest := by
  constructor
  · rintro ⟨h, hp⟩
    unfold operand at hp
    split at hp
    next => exact .inl ⟨h, hp⟩
    next t ts =>
      split at hp
      next ht =>
        split at hp
        next => cases hp
        next n =>
          obtain ⟨⟨c', ts', h₁⟩, hc, hp⟩ := exists_of_bind hp
          cases hp
          exact .inr (.inl ⟨t, n, ts, c', rfl, rfl, ht, rfl, h₁, hc⟩)
      next ht =>
        split at hp
        next => cases hp
        next n =>
          obtain ⟨⟨c', ts', h₁⟩, hc, hp⟩ := exists_of_bind hp
          obtain ⟨⟨u, ts'', h₂⟩, hclose, hp⟩ := exists_of_bind hp
          cases hp
          exact .inr (.inr ⟨t, n, ts, u, ts', rfl, rfl, ht, ⟨h₁, hc⟩, ⟨h₂, hclose⟩⟩)
      next => exact .inl ⟨h, hp⟩
  · rintro (hc | ⟨t, n, ts, c', rfl, rfl, ht, rfl, h₁, hc⟩ |
      ⟨t, n, ts, u, ts', rfl, rfl, ht, ⟨h₁, hc⟩, ⟨h₂, hclose⟩⟩)
    · obtain ⟨t, ts, name, rfl, ht⟩ := exists_word_of_reads_comparison hc
      obtain ⟨h, hc⟩ := hc
      refine ⟨h, ?_⟩
      unfold operand
      simp only [ht]
      exact hc
    · refine ⟨by simp only [List.length_cons]; omega, ?_⟩
      unfold operand
      simp only [ht, hc, Bind.bind, Except.bind]
      rfl
    · refine ⟨by simp only [List.length_cons]; omega, ?_⟩
      unfold operand
      simp only [ht, hc, hclose, Bind.bind, Except.bind]
      rfl

theorem not_exact {cap n : Nat} {spells : List TokenKind → Condition → Prop}
    (h : Exact (Reads (operand cap n)) spells Anything) :
    Exact (fun tokens c rest => ∃ t ts c', tokens = t :: ts ∧ t.kind = .keyword .not ∧
        c = .not c' ∧ Reads (operand cap n) ts c' rest)
      (SpellsNot spells) Anything where
  sound := by
    rintro tokens c rest ⟨t, ts, c', rfl, ht, rfl, hc⟩
    obtain ⟨front, rfl, hspells⟩ := h.sound hc
    exact ⟨t :: front, rfl, kinds front, c', by rw [kinds_cons, ht], rfl, hspells⟩
  complete := by
    rintro front c rest ⟨inner, c', hks, rfl, hspells⟩ hnext
    obtain ⟨t, front', rfl, ht, rfl⟩ := kinds_eq_cons hks
    exact ⟨t, front' ++ rest, c', rfl, ht, rfl, h.complete hspells hnext⟩

theorem parens_exact {cap n : Nat} {what : Wanted} {spells : List TokenKind → Condition → Prop}
    (h : Exact (Reads (operand cap n)) spells Anything) :
    Exact (fun tokens c rest => ∃ t ts u ts', tokens = t :: ts ∧ t.kind = .openParen ∧
        Reads (disjunction (operand cap n)) ts c ts' ∧ Reads (token .closeParen what) ts' u rest)
      (SpellsParens spells) Anything := by
  have hafter : AfterDisjunction (some .closeParen) := ⟨⟨trivial, nofun⟩, nofun⟩
  exact h.disjunction.enclosed hafter

theorem operand_exact (cap levels : Nat) :
    Exact (Reads (operand cap levels)) (SpellsOperand levels) Anything := by
  induction levels with
  | zero =>
    constructor
    · intro tokens c rest h
      rcases reads_operand.1 h with hc | ⟨_, n, _, _, hn, _⟩ | ⟨_, n, _, _, _, hn, _⟩
      · exact (comparison_exact cap 0).sound hc
      · cases hn
      · cases hn
    · intro front c rest hspells hnext
      exact reads_operand.2 (.inl ((comparison_exact cap 0).complete hspells hnext))
  | succ n ih =>
    constructor
    · intro tokens c rest h
      rcases reads_operand.1 h with hc | ⟨t, _, ts, c', hn, hnot⟩ | ⟨t, _, ts, u, ts', hn, hparens⟩
      · obtain ⟨front, rfl, hspells⟩ := (comparison_exact cap (n + 1)).sound hc
        exact ⟨front, rfl, .inl hspells⟩
      · cases hn
        obtain ⟨front, rfl, hspells⟩ := (not_exact ih).sound ⟨t, ts, c', hnot⟩
        exact ⟨front, rfl, .inr (.inl hspells)⟩
      · cases hn
        obtain ⟨front, rfl, hspells⟩ := (parens_exact ih).sound ⟨t, ts, u, ts', hparens⟩
        exact ⟨front, rfl, .inr (.inr hspells)⟩
    · rintro front c rest (hc | hnot | hparens) hnext
      · exact reads_operand.2 (.inl ((comparison_exact cap (n + 1)).complete hc hnext))
      · obtain ⟨t, ts, c', hreads⟩ := (not_exact ih).complete hnot hnext
        exact reads_operand.2 (.inr (.inl ⟨t, n, ts, c', rfl, hreads⟩))
      · obtain ⟨t, ts, u, ts', hreads⟩ := (parens_exact ih).complete hparens hnext
        exact reads_operand.2 (.inr (.inr ⟨t, n, ts, u, ts', rfl, hreads⟩))

theorem condition_exact (cap : Nat) :
    Exact (Reads (condition cap)) (SpellsCondition cap) AfterDisjunction := by
  cases cap with
  | zero =>
    constructor
    · rintro tokens c rest ⟨_, hp⟩
      cases hp
    · intro front c rest hspells
      exact hspells.elim
  | succ n => exact (operand_exact (n + 1) n).disjunction

end Grammar

end Delegation
