import Delegation.Proofs.Source.CanonicalTokens

namespace Delegation

open Lexer

namespace Grammar

variable {α : Type} {item : List TokenKind → α → Prop} {separator : TokenKind}
  {ks : List TokenKind} {as : List α} {n depth : Nat} {c : Condition}

theorem separated_of_forall {kss : List (List TokenKind)} (h : List.Forall₂ item kss as)
    (hne : as ≠ []) : Separated item separator (joinWith [separator] kss) as := by
  induction h with
  | nil => exact absurd rfl hne
  | @cons ks a kss as ha has ih =>
    cases has with
    | nil => exact .one ha
    | cons ha' has' =>
      rw [joinWith_cons_cons, List.append_assoc]
      exact .more ha (ih (List.cons_ne_nil _ _))

theorem dotted_of_forall {segment? : TokenKind → Option (List Char)} {more : List (List Char)}
    (first : List Char) (h : ∀ s ∈ more, segment? (segmentKind s) = some s) :
    ∃ ks, pathKinds (first :: more) = segmentKind first :: ks ∧ Dotted segment? ks more := by
  induction more generalizing first with
  | nil => exact ⟨[], rfl, .nil⟩
  | cons s more ih =>
    obtain ⟨ks, hks, hdotted⟩ := ih s fun s' hs' => h s' (List.mem_cons_of_mem _ hs')
    refine ⟨.dot :: segmentKind s :: ks, ?_, .cons (h s List.mem_cons_self) hdotted⟩
    rw [← hks]
    rfl

theorem spellsPath {first? segment? : TokenKind → Option (List Char)} {path : String}
    {first : List Char} {more : List (List Char)} (hsplit : splitOn '.' path.toList = first :: more)
    (hfirst : first? (segmentKind first) = some first)
    (hmore : ∀ s ∈ more, segment? (segmentKind s) = some s) :
    SpellsPath first? segment? (dottedKinds path) path := by
  obtain ⟨ks, hks, hdotted⟩ := dotted_of_forall first hmore
  refine ⟨segmentKind first, ks, first, more, ?_, hfirst, hdotted, ?_⟩
  · rw [dottedKinds, hsplit, hks]
  · rw [← hsplit, joinWith_splitOn, String.ofList_toList]

theorem dottedText?_wordKind (word : List Char) : dottedText? (wordKind word) = some word := by
  rw [wordKind]
  split
  next k hk =>
    unfold Keyword.ofText? at hk
    have htext := List.find?_some hk
    rw [dottedText?, beq_iff_eq.1 htext, String.toList_ofList]
  next => rw [dottedText?, String.toList_ofList]

theorem segmentKind_of_isWord {afterDot : Bool} {word : List Char} (h : IsWord afterDot word) :
    segmentKind word = wordKind word := by
  rw [segmentKind, if_neg, if_neg]
  · rintro rfl
    exact h.2 (by decide)
  · rintro rfl
    exact h.2 (by decide)

theorem wordText?_of_isWord {word : List Char} (h : IsWord false word) :
    wordText? (segmentKind word) = some word := by
  obtain rfl | rfl | ⟨_, _, -, -, -, -, hkeyword⟩ := h.1.cases
  · exact absurd h.2 (by decide)
  · exact absurd h.2 (by decide)
  · rw [segmentKind_of_isWord h, wordKind, hkeyword rfl]
    exact congrArg some (String.toList_ofList ..)

theorem dottedText?_of_isWord {afterDot : Bool} {word : List Char} (h : IsWord afterDot word) :
    dottedText? (segmentKind word) = some word := by
  rw [segmentKind_of_isWord h]
  exact dottedText?_wordKind word

theorem spellsField {field : String} (h : IsField field) : SpellsField (dottedKinds field) field := by
  obtain ⟨first, more, hsplit, hfirst, hmore⟩ := h
  exact spellsPath hsplit (wordText?_of_isWord hfirst) fun s hs => dottedText?_of_isWord (hmore s hs)

theorem star_or_isWord {afterDot : Bool} {segment : List Char} (h : IsSegment afterDot segment) :
    segment = ['*'] ∨ segment = ['*', '*'] ∨ IsWord afterDot segment := by
  obtain hany | hdepth | ⟨_, _, -, hstar, -, -, -⟩ := h.cases
  · exact .inl hany
  · exact .inr (.inl hdepth)
  · exact .inr (.inr ⟨h, hstar⟩)

theorem spellsAction {action : String} (h : ActionPattern.fault? action = none) :
    SpellsAction (dottedKinds action) action := by
  obtain ⟨first, more, hsplit, hfirst, hmore⟩ := exists_segments h
  refine spellsPath hsplit ?_ fun s hs => ?_
  · obtain rfl | rfl | hword := star_or_isWord hfirst
    · rfl
    · rfl
    · rw [wordText?_of_isWord hword, Option.some_or]
  · obtain rfl | rfl | hword := star_or_isWord (hmore s hs)
    · rfl
    · rfl
    · rw [dottedText?_of_isWord hword, Option.some_or]

theorem spellsValue_scalar {k : TokenKind} {v : Value} (h : scalar? k = some v) (n : Nat) :
    SpellsValue n [k] v := by
  cases n with
  | zero => exact ⟨k, rfl, h⟩
  | succ n => exact .inl ⟨k, rfl, h⟩

mutual

theorem spellsValue : ∀ (v : Value) (n : Nat), v.hasEmptyArray = false → v.nesting ≤ n →
    SpellsValue n v.kinds v
  | .bool true, n, _, _ => spellsValue_scalar rfl n
  | .bool false, n, _, _ => spellsValue_scalar rfl n
  | .number _, n, _, _ => spellsValue_scalar rfl n
  | .text _, n, _, _ => spellsValue_scalar rfl n
  | .array _, 0, _, hn => absurd hn (Nat.not_succ_le_zero _)
  | .array items, n + 1, hempty, hn => by
    rw [Value.hasEmptyArray, Bool.or_eq_false_iff, List.isEmpty_eq_false_iff] at hempty
    have hitems := spellsValues items n hempty.2 (Nat.le_of_succ_le_succ hn)
    exact .inr ⟨_, items, rfl, rfl, separated_of_forall hitems hempty.1⟩

theorem spellsValues : ∀ (vs : List Value) (n : Nat), Value.anyEmptyArray vs = false →
    Value.nestingAll vs ≤ n → List.Forall₂ (SpellsValue n) (Value.kindsAll vs) vs
  | [], _, _, _ => .nil
  | v :: vs, n, hempty, hn => by
    rw [Value.anyEmptyArray, Bool.or_eq_false_iff] at hempty
    rw [Value.nestingAll, Nat.max_le] at hn
    have hv := spellsValue v n hempty.1 hn.1
    have hvs := spellsValues vs n hempty.2 hn.2
    exact .cons hv hvs

end

theorem SpellsJoined.single {operand : List TokenKind → Condition → Prop} {k : Keyword}
    {join : List Condition → Condition} (h : operand ks c) : SpellsJoined operand k join ks c :=
  ⟨[c], .one h, rfl⟩

theorem joined_of_two {join : List Condition → Condition} {cs : List Condition}
    (h : ¬cs.length < 2) : joined join cs = join cs := by
  match cs, h with
  | [], h => exact absurd (by decide) h
  | [_], h => exact absurd Nat.one_lt_two h
  | _ :: _ :: _, _ => rfl

theorem forall_kindsAll {item : List TokenKind → Condition → Prop} {needsParens : Condition → Bool}
    {cs : List Condition} (h : ∀ c ∈ cs, item (Condition.kindsIn (needsParens c) c.kinds) c) :
    List.Forall₂ item (Condition.kindsAll needsParens cs) cs := by
  induction cs with
  | nil => exact .nil
  | cons c cs ih =>
    exact .cons (h c List.mem_cons_self) (ih fun d hd => h d (List.mem_cons_of_mem _ hd))

theorem spellsJoined {operand : List TokenKind → Condition → Prop} {k : Keyword}
    {join : List Condition → Condition} {needsParens : Condition → Bool} {cs : List Condition}
    (htwo : ¬cs.length < 2)
    (h : ∀ c ∈ cs, operand (Condition.kindsIn (needsParens c) c.kinds) c) :
    SpellsJoined operand k join (joinWith [.keyword k] (Condition.kindsAll needsParens cs))
      (join cs) := by
  refine ⟨cs, separated_of_forall (forall_kindsAll h) ?_, (joined_of_two htwo).symm⟩
  rintro rfl
  exact htwo Nat.zero_lt_two

theorem spellsSeverity (severity : Severity) :
    SpellsSeverity (severityKinds severity) severity := by
  cases severity with
  | critical => exact .inr ⟨"critical", rfl, rfl⟩
  | high => exact .inl ⟨rfl, rfl⟩
  | medium => exact .inr ⟨"medium", rfl, rfl⟩
  | low => exact .inr ⟨"low", rfl, rfl⟩

theorem spellsResource {resource : String} (h : resource.isEmpty = false) :
    SpellsResource [resourceKind resource] resource := by
  refine ⟨⟨_, rfl, ?_⟩, h⟩
  unfold resourceKind
  by_cases hany : resource = "*"
  · rw [if_pos hany, hany]
    rfl
  · by_cases hdepth : resource = "**"
    · rw [if_neg hany, if_pos hdepth, hdepth]
      rfl
    · rw [if_neg hany, if_neg hdepth]
      rfl

variable [Matchers]

theorem of_comparisonFault? {field : String} {op : Operator} {v : Value}
    (h : comparisonFault? field op v = none) :
    operandFault? op v = none ∧ v.hasEmptyArray = false := by
  unfold comparisonFault? at h
  unfold operandFault?
  split at h
  next => cases h
  next =>
    split at h
    next => cases h
    next harray =>
      split at h
      next => cases h
      next hempty =>
        refine ⟨?_, Bool.eq_false_iff.2 hempty⟩
        rw [if_neg harray]
        split at h
        next hregex =>
          rw [if_pos hregex]
          split at h
          next pattern =>
            split at h
            next hpattern => exact if_pos hpattern
            next => cases h
          next => cases h
        next hregex => exact if_neg hregex

theorem spellsComparison {field : String} {op : Operator} {v : Value} (hfield : IsField field)
    (hfault : comparisonFault? field op v = none) (hn : v.nesting ≤ n) :
    SpellsComparison n (Condition.comparison field op v).kinds (.comparison field op v) := by
  obtain ⟨hoperand, hempty⟩ := of_comparisonFault? hfault
  exact ⟨dottedKinds field, operatorKind op, v.kinds, field, op, v, rfl, rfl, spellsField hfield,
    operator?_operatorKind op, spellsValue v n hempty hn, hoperand⟩

/-- A condition without parentheses around it, in the loosest place where it can stand so. -/
def SpellsBare (levels : Nat) (ks : List TokenKind) (c : Condition) : Prop :=
  match c with
  | .and _ => SpellsConjunction (SpellsOperand levels) ks c
  | .or _ => SpellsDisjunction (SpellsOperand levels) ks c
  | _ => SpellsOperand levels ks c

theorem SpellsBare.disjunction (h : SpellsBare n ks c) :
    SpellsDisjunction (SpellsOperand n) ks c := by
  cases c with
  | comparison => exact .single (.single h)
  | and => exact .single h
  | or => exact h
  | not => exact .single (.single h)

theorem spellsParens (h : ∀ m, c.nesting ≤ m → SpellsBare m c.kinds c) (hn : c.nesting + 1 ≤ n) :
    SpellsOperand n (.openParen :: (c.kinds ++ [.closeParen])) c := by
  cases n with
  | zero => exact absurd hn (Nat.not_succ_le_zero _)
  | succ n => exact .inr (.inr ⟨c.kinds, rfl, (h n (Nat.le_of_succ_le_succ hn)).disjunction⟩)

theorem operand_of_bare (h : ∀ m, c.nesting ≤ m → SpellsBare m c.kinds c)
    (hn : Condition.nestingIn c.isJunction c.nesting ≤ n) :
    SpellsOperand n (Condition.kindsIn c.isJunction c.kinds) c := by
  cases c with
  | comparison => exact h n hn
  | and => exact spellsParens h hn
  | or => exact spellsParens h hn
  | not => exact h n hn

theorem conjunction_of_bare (h : ∀ m, c.nesting ≤ m → SpellsBare m c.kinds c)
    (hn : Condition.nestingIn c.isOr c.nesting ≤ n) :
    SpellsConjunction (SpellsOperand n) (Condition.kindsIn c.isOr c.kinds) c := by
  cases c with
  | comparison => exact .single (h n hn)
  | and => exact h n hn
  | or => exact .single (spellsParens h hn)
  | not => exact .single (h n hn)

theorem SpellsComparison.operand (h : SpellsComparison n ks c) : SpellsOperand n ks c := by
  cases n with
  | zero => exact h
  | succ n => exact .inl h

theorem of_fault? {c : Condition} (h : c.fault? depth = none) :
    match c with
    | .comparison field op v => comparisonFault? field op v = none
    | .and cs | .or cs => ¬cs.length < 2 ∧ Condition.firstFault? (depth + 1) cs = none
    | .not c => c.fault? (depth + 1) = none := by
  cases c <;> unfold Condition.fault? at h <;> split at h
  all_goals try cases h
  · exact h
  · split at h
    · cases h
    · exact ⟨‹_›, h⟩
  · split at h
    · cases h
    · exact ⟨‹_›, h⟩
  · exact h

mutual

theorem spellsBare : ∀ (c : Condition) (n depth : Nat), c.fault? depth = none → c.HasFields →
    c.nesting ≤ n → SpellsBare n c.kinds c
  | .comparison field _ _, _, _, hfault, hfields, hn => by
    have hcomparison := spellsComparison (hfields field List.mem_cons_self) (of_fault? hfault) hn
    exact hcomparison.operand
  | .and cs, n, depth, hfault, hfields, hn => by
    obtain ⟨htwo, hcs⟩ := of_fault? hfault
    have hall := spellsEach cs (depth + 1) hcs hfields
    apply spellsJoined htwo
    intro c hc
    exact operand_of_bare (hall c hc) (Nat.le_trans (Condition.nestingIn_le_of_mem hc) hn)
  | .or cs, n, depth, hfault, hfields, hn => by
    obtain ⟨htwo, hcs⟩ := of_fault? hfault
    have hall := spellsEach cs (depth + 1) hcs hfields
    apply spellsJoined htwo
    intro c hc
    exact conjunction_of_bare (hall c hc) (Nat.le_trans (Condition.nestingIn_le_of_mem hc) hn)
  | .not _, 0, _, _, _, hn => absurd hn (Nat.not_succ_le_zero _)
  | .not c, n + 1, depth, hfault, hfields, hn => by
    have hbare : ∀ m, c.nesting ≤ m → SpellsBare m c.kinds c := by
      intro m hm
      exact spellsBare c m (depth + 1) (of_fault? hfault) hfields hm
    have hoperand := operand_of_bare hbare (Nat.le_of_succ_le_succ hn)
    exact .inr (.inl ⟨_, c, rfl, rfl, hoperand⟩)

theorem spellsEach : ∀ (cs : List Condition) (depth : Nat), Condition.firstFault? depth cs = none →
    (∀ field ∈ (Condition.comparisonsAll cs).map (·.1), IsField field) →
    ∀ c ∈ cs, ∀ m, c.nesting ≤ m → SpellsBare m c.kinds c
  | [], _, _, _, _, hc => absurd hc List.not_mem_nil
  | d :: cs, depth, hfault, hfields, c, hc => by
    rw [Condition.firstFault?, Option.or_eq_none_iff] at hfault
    rw [Condition.comparisonsAll, List.map_append] at hfields
    have hd : d.HasFields := fun field h => hfields field (List.mem_append_left _ h)
    have hcs : ∀ field ∈ (Condition.comparisonsAll cs).map (·.1), IsField field := fun field h =>
      hfields field (List.mem_append_right _ h)
    intro m hm
    rcases List.mem_cons.1 hc with h | hc
    · rw [h] at hm ⊢
      exact spellsBare d m depth hfault.1 hd hm
    · exact spellsEach cs depth hfault.2 hcs c hc m hm

end

theorem spellsCondition (hfault : c.fault? depth = none) (hfields : c.HasFields)
    (hn : c.nesting < n) : SpellsCondition n c.kinds c := by
  cases n with
  | zero => exact absurd hn (Nat.not_lt_zero _)
  | succ n => exact (spellsBare c n depth hfault hfields (Nat.le_of_lt_succ hn)).disjunction

end Grammar

namespace Statement

def withLine (line : Nat) : Statement → Statement
  | access kind r => access kind { r with line }
  | limit r => limit { r with line }

variable [Matchers]

theorem spells_access {options : ParseOptions} {kind : AccessKind} {r : AccessRule}
    (haction : ActionPattern.fault? r.action = none) (hresource : r.resource.isEmpty = false)
    (hcondition : ∀ c, r.condition = some c → Grammar.SpellsCondition options.cap c.kinds c)
    (line : Nat) : Grammar.SpellsStatement options line (access kind r).kinds
      ((access kind r).withLine line) := by
  have hkind : Grammar.accessKind? (.keyword kind.keyword) = some kind := by cases kind <;> rfl
  have hwhen : Grammar.SpellsWhen options.cap (whenKinds r.condition) r.condition := by
    cases hc : r.condition with
    | none => exact .inl ⟨rfl, rfl⟩
    | some c => exact .inr ⟨c.kinds, c, rfl, rfl, hcondition c hc⟩
  refine ⟨_, _, rfl, hkind, dottedKinds r.action, [resourceKind r.resource], whenKinds r.condition,
    severityKinds r.severity, ?_, Grammar.spellsAction haction, Grammar.spellsResource hresource,
    hwhen, Grammar.spellsSeverity r.severity, rfl⟩
  rw [List.append_assoc, List.append_assoc]
  rfl

/-- The tokens of a legible statement spell it, on whatever line they stand. -/
theorem spells {options : ParseOptions} {s : Statement} (hwell : s.fault? = none)
    (hlegible : s.Legible options.cap) (line : Nat) :
    Grammar.SpellsStatement options line s.kinds (s.withLine line) := by
  have haction := action_fault?_eq_none hwell
  cases s with
  | access kind r =>
    obtain ⟨hresource, hfault⟩ := access_of_fault? hwell
    apply spells_access haction hresource
    intro c hc
    rw [hc, Option.bind_some] at hfault
    obtain ⟨hnesting, hfields⟩ := hlegible c hc
    exact Grammar.spellsCondition hfault hfields hnesting
  | limit r =>
    have hpos := limit_of_fault? hwell
    obtain ⟨hcount, hamount, hmax⟩ := hlegible
    obtain ⟨seconds, hunit, hperiod, -⟩ := Grammar.largestUnit_spec hpos
    exact ⟨_, rfl, _, _, _, _, _, _, seconds, rfl, Grammar.spellsAction haction, hcount, hamount,
      .inl hunit, hperiod.symm, hmax, Nat.ne_of_gt hpos, Grammar.spellsSeverity r.severity, rfl⟩

end Statement

end Delegation
