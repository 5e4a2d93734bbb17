import Delegation.Proofs.Source.Legible

namespace Delegation

open Lexer

namespace Condition

variable {cs : List Condition} {n : Nat}

theorem depthAll_le (h : ∀ c ∈ cs, c.depth ≤ n) : depthAll cs ≤ n := by
  induction cs with
  | nil => exact Nat.zero_le n
  | cons c cs ih =>
    rw [List.forall_mem_cons] at h
    exact Nat.max_le.2 ⟨h.1, ih h.2⟩

mutual

/-- Every `and` and every `or` joins two operands or more. -/
def Joins : Condition → Prop
  | comparison .. => True
  | and operands | or operands => 2 ≤ operands.length ∧ JoinsAll operands
  | not operand => operand.Joins

def JoinsAll : List Condition → Prop
  | [] => True
  | c :: cs => c.Joins ∧ JoinsAll cs

end

theorem joinsAll_of_forall (h : ∀ c ∈ cs, c.Joins) : JoinsAll cs := by
  induction cs with
  | nil => trivial
  | cons c cs ih =>
    rw [List.forall_mem_cons] at h
    exact ⟨h.1, ih h.2⟩

/-- A condition as the grammar makes it, of a depth up to `n`. -/
structure Shaped (n : Nat) (c : Condition) : Prop where
  joins : c.Joins
  depth_le : c.depth ≤ n

theorem Shaped.weaken {m : Nat} {c : Condition} (h : c.Shaped m) (hle : m ≤ n) : c.Shaped n :=
  ⟨h.joins, Nat.le_trans h.depth_le hle⟩

theorem Shaped.and (htwo : 2 ≤ cs.length) (h : ∀ c ∈ cs, c.Shaped n) :
    (Condition.and cs).Shaped (1 + n) where
  joins := ⟨htwo, joinsAll_of_forall fun c hc => (h c hc).joins⟩
  depth_le := Nat.add_le_add_left (depthAll_le fun c hc => (h c hc).depth_le) 1

theorem Shaped.or (htwo : 2 ≤ cs.length) (h : ∀ c ∈ cs, c.Shaped n) :
    (Condition.or cs).Shaped (1 + n) where
  joins := ⟨htwo, joinsAll_of_forall fun c hc => (h c hc).joins⟩
  depth_le := Nat.add_le_add_left (depthAll_le fun c hc => (h c hc).depth_le) 1

theorem Shaped.not {c : Condition} (h : c.Shaped n) : (Condition.not c).Shaped (1 + n) :=
  ⟨h.joins, Nat.add_le_add_left h.depth_le 1⟩

/-- The fault of a condition that has none but for its depth, given the level below its deepest one. -/
def depthFault? (depth : Nat) : Option DocumentFault :=
  if depth ≤ maxDocumentDepth + 1 then none else some .tooDeep

theorem depthFault?_or (m n : Nat) :
    (depthFault? m).or (depthFault? n) = depthFault? (max m n) := by
  unfold depthFault?
  by_cases hm : m ≤ maxDocumentDepth + 1
  · by_cases hn : n ≤ maxDocumentDepth + 1
    · rw [if_pos hm, if_pos hn, if_pos (Nat.max_le.2 ⟨hm, hn⟩)]
      rfl
    · rw [if_pos hm, if_neg hn, if_neg fun h => hn (Nat.max_le.1 h).2]
      rfl
  · rw [if_neg hm, if_neg fun h => hm (Nat.max_le.1 h).1]
    rfl

theorem depthFault?_of_guard (n : Nat) {depth : Nat} {below : Option DocumentFault}
    (h : depth ≤ maxDocumentDepth → below = depthFault? (depth + 1 + n)) :
    (if depth > maxDocumentDepth then some .tooDeep else below) = depthFault? (depth + (1 + n)) := by
  rw [← Nat.add_assoc]
  by_cases hdepth : depth > maxDocumentDepth
  · rw [if_pos hdepth, depthFault?, if_neg (by omega)]
  · rw [if_neg hdepth, h (Nat.le_of_not_lt hdepth)]

variable [Matchers]

mutual

theorem fault?_eq : ∀ (c : Condition) (depth : Nat), c.Joins →
    (∀ x ∈ c.comparisons, comparisonFault? x.1 x.2.1 x.2.2 = none) →
    c.fault? depth = depthFault? (depth + c.depth)
  | .comparison field op v, depth, _, hcomparisons => by
    have hnone : comparisonFault? field op v = none := hcomparisons (field, op, v) List.mem_cons_self
    apply depthFault?_of_guard 0
    intro hdepth
    rw [hnone, depthFault?, if_pos (by omega)]
  | .and cs, depth, hjoins, hcomparisons => by
    apply depthFault?_of_guard
    intro hdepth
    rw [if_neg (Nat.not_lt.2 hjoins.1)]
    exact firstFault?_eq cs (depth + 1) (Nat.succ_le_succ hdepth) hjoins.2 hcomparisons
  | .or cs, depth, hjoins, hcomparisons => by
    apply depthFault?_of_guard
    intro hdepth
    rw [if_neg (Nat.not_lt.2 hjoins.1)]
    exact firstFault?_eq cs (depth + 1) (Nat.succ_le_succ hdepth) hjoins.2 hcomparisons
  | .not c, depth, hjoins, hcomparisons => by
    apply depthFault?_of_guard
    intro _
    exact fault?_eq c (depth + 1) hjoins hcomparisons

theorem firstFault?_eq : ∀ (cs : List Condition) (depth : Nat), depth ≤ maxDocumentDepth + 1 →
    JoinsAll cs → (∀ x ∈ comparisonsAll cs, comparisonFault? x.1 x.2.1 x.2.2 = none) →
    firstFault? depth cs = depthFault? (depth + depthAll cs)
  | [], _, hdepth, _, _ => (if_pos hdepth).symm
  | c :: cs, depth, hdepth, hjoins, hcomparisons => by
    rw [comparisonsAll] at hcomparisons
    have hc := fault?_eq c depth hjoins.1 fun x hx => hcomparisons x (List.mem_append_left _ hx)
    have hcs := firstFault?_eq cs depth hdepth hjoins.2
      fun x hx => hcomparisons x (List.mem_append_right _ hx)
    rw [firstFault?, hc, hcs, depthFault?_or, depthAll, Nat.add_max_add_left]

end

end Condition

namespace Grammar

variable {ks : List TokenKind} {c : Condition} {n : Nat} {afterDot : Bool}
  {operand : List TokenKind → Condition → Prop}

theorem shaped_of_joined {k : Keyword} {join : List Condition → Condition}
    (hjoin : ∀ cs, 2 ≤ cs.length → (∀ c ∈ cs, c.Shaped n) → (join cs).Shaped (1 + n))
    (hoperand : ∀ ks c, operand ks c → c.Shaped n) (h : SpellsJoined operand k join ks c) :
    c.Shaped (1 + n) := by
  obtain ⟨cs, hcs, rfl⟩ := h
  have hall := hcs.forall hoperand
  match cs, hcs.ne_nil with
  | [c], _ => exact (hall c List.mem_cons_self).weaken (Nat.le_add_left n 1)
  | _ :: _ :: cs, _ => exact hjoin _ (Nat.le_add_left 2 cs.length) hall

theorem shaped_of_disjunction (hoperand : ∀ ks c, operand ks c → c.Shaped n)
    (h : SpellsDisjunction operand ks c) : c.Shaped (n + 2) := by
  have hconjunction : ∀ ks c, SpellsConjunction operand ks c → c.Shaped (1 + n) :=
    fun _ _ hc => shaped_of_joined (fun _ => .and) hoperand hc
  exact (shaped_of_joined (fun _ => .or) hconjunction h).weaken (by omega)

theorem isSegment_of_wildcardText? {k : TokenKind} {segment : List Char}
    (h : wildcardText? k = some segment) : IsSegment afterDot segment := by
  unfold wildcardText? at h
  split at h <;> cases h <;> cases afterDot <;> decide

theorem actionFault?_of_segments {pattern : String} {first : List Char} {more : List (List Char)}
    (hsplit : splitOn '.' pattern.toList = first :: more) (hfirst : IsSegment false first)
    (hmore : ∀ s ∈ more, IsSegment true s) : ActionPattern.fault? pattern = none := by
  unfold ActionPattern.fault?
  split
  next hempty =>
    rw [List.isEmpty_iff.1 hempty] at hsplit
    cases hsplit
    cases hfirst
  next =>
    rw [hsplit]
    exact Option.or_eq_none_iff.2 ⟨hfirst, List.findSome?_eq_none_iff.2 hmore⟩

theorem actionFault?_of_spellsAction {action : String} (h : SpellsAction ks action)
    (hlexed : Lexed false ks) : ActionPattern.fault? action = none := by
  have hfirst : ∀ k s, (wordText? k).or (wildcardText? k) = some s → WellLexed false k →
      IsSegment false s := by
    intro k s hk hwell
    rcases Option.or_eq_some_iff.1 hk with hk | ⟨-, hk⟩
    · exact (isWord_of_wordText? hk hwell).1
    · exact isSegment_of_wildcardText? hk
  have hsegment : ∀ k s, (dottedText? k).or (wildcardText? k) = some s → WellLexed true k →
      IsSegment true s := by
    intro k s hk hwell
    rcases Option.or_eq_some_iff.1 hk with hk | ⟨-, hk⟩
    · exact (isWord_of_dottedText? hk hwell).1
    · exact isSegment_of_wildcardText? hk
  obtain ⟨first, more, hsplit, hword, hwords⟩ :=
    exists_parts_of_spellsPath hfirst hsegment (fun _ _ => not_dot_of_isSegment) h hlexed
  exact actionFault?_of_segments hsplit hword hwords

theorem IsSegment.not_empty {segment : List Char} (h : IsSegment afterDot segment) :
    segment.isEmpty = false := by
  cases segment with
  | nil => cases h
  | cons => rfl

theorem isFieldPath_of_isField {field : String} (h : IsField field) : isFieldPath field = true := by
  obtain ⟨first, more, hsplit, hfirst, hmore⟩ := h
  rw [isFieldPath, hsplit, List.all_eq_true, List.forall_mem_cons]
  have hnot : ∀ {afterDot s}, IsWord afterDot s → (!s.isEmpty) = true := by
    intro afterDot s hs
    rw [IsSegment.not_empty hs.1]
    rfl
  exact ⟨hnot hfirst, fun s hs => hnot (hmore s hs)⟩

theorem hasEmptyArray_scalar {k : TokenKind} {v : Value} (h : scalar? k = some v) :
    v.hasEmptyArray = false := by
  unfold scalar? at h
  split at h <;> cases h <;> rfl

theorem hasEmptyArray_of_spellsValue {v : Value} (h : SpellsValue n ks v) :
    v.hasEmptyArray = false := by
  induction n generalizing ks v with
  | zero =>
    obtain ⟨k, -, hv⟩ := h
    exact hasEmptyArray_scalar hv
  | succ n ih =>
    rcases h with ⟨k, -, hv⟩ | ⟨inner, items, -, rfl, hitems⟩
    · exact hasEmptyArray_scalar hv
    · have hall := hitems.forall fun _ _ hv => ih hv
      rw [Value.hasEmptyArray, List.isEmpty_eq_false_iff.2 hitems.ne_nil, Bool.false_or]
      clear hitems
      induction items with
      | nil => rfl
      | cons v vs ihvs =>
        rw [List.forall_mem_cons] at hall
        rw [Value.anyEmptyArray, hall.1, ihvs hall.2]
        rfl

theorem accessKind?_ne_dot {k : TokenKind} {kind : AccessKind} (h : accessKind? k = some kind) :
    k ≠ .dot := by
  rintro rfl
  cases h

variable [Matchers]

theorem shaped_of_spellsComparison (h : SpellsComparison n ks c) : c.Shaped 1 := by
  obtain ⟨fs, k, vs, field, op, v, -, rfl, -⟩ := h
  exact ⟨trivial, Nat.le_refl 1⟩

theorem shaped_of_spellsOperand (h : SpellsOperand n ks c) : c.Shaped (2 * n + 1) := by
  induction n generalizing ks c with
  | zero => exact shaped_of_spellsComparison h
  | succ n ih =>
    rcases h with h | ⟨inner, c', -, rfl, hc⟩ | ⟨inner, -, hc⟩
    · exact (shaped_of_spellsComparison h).weaken (by omega)
    · exact (ih hc).not.weaken (by omega)
    · exact shaped_of_disjunction (fun _ _ h => ih h) hc

/-- A level of nesting makes at most two levels of a condition: the cap that gives as many levels as a
document may have leaves no room for the comparisons below them. -/
theorem shaped_of_spellsCondition (h : SpellsCondition n ks c) : c.Shaped (2 * n + 1) := by
  cases n with
  | zero => cases h
  | succ n => exact shaped_of_disjunction (fun _ _ h => shaped_of_spellsOperand h) h

theorem comparisonFault?_of_operandFault? {field : String} {op : Operator} {v : Value}
    (hfield : isFieldPath field = true) (hempty : v.hasEmptyArray = false)
    (h : operandFault? op v = none) : comparisonFault? field op v = none := by
  unfold operandFault? at h
  unfold comparisonFault?
  rw [hfield, hempty, if_neg (by decide), if_neg Bool.false_ne_true]
  split at h
  next => cases h
  next harray =>
    rw [if_neg harray]
    split at h
    next hregex =>
      rw [if_pos hregex]
      split at h
      next pattern =>
        split at h
        next hpattern => exact if_pos hpattern
        next => cases h
      next => cases h
    next hregex => exact if_neg hregex

theorem comparisonFault?_of_spellsCondition (h : SpellsCondition n ks c) (hlexed : Lexed false ks) :
    ∀ x ∈ c.comparisons, comparisonFault? x.1 x.2.1 x.2.2 = none := by
  have hcomparison : ∀ n ks c, SpellsComparison n ks c → ∀ x ∈ c.comparisons, Lexed false ks →
      comparisonFault? x.1 x.2.1 x.2.2 = none := by
    rintro n _ _ ⟨fs, k, vs, field, op, v, rfl, rfl, hfield, -, hv, hoperand⟩ x hx hlexed
    rw [List.mem_singleton.1 hx]
    have hpath := isFieldPath_of_isField (isField_of_spellsField hfield hlexed.left)
    exact comparisonFault?_of_operandFault? hpath (hasEmptyArray_of_spellsValue hv) hoperand
  intro x hx
  exact (hereditary_lexed _).of_condition hcomparison h x hx hlexed

variable {options : ParseOptions} {line : Nat} {s : Statement}

theorem actionFault?_of_spellsStatement (h : SpellsStatement options line ks s)
    (hlexed : Lexed afterDot ks) : ActionPattern.fault? s.action = none := by
  cases s with
  | access kind r =>
    obtain ⟨k, body, rfl, hkind, as, rs, ws, ss, rfl, haction, -⟩ := h
    exact actionFault?_of_spellsAction haction (hlexed.tail (accessKind?_ne_dot hkind)).left
  | limit r =>
    obtain ⟨body, rfl, as, x, y, unit, ss, amount, seconds, rfl, haction, -⟩ := h
    exact actionFault?_of_spellsAction haction (hlexed.tail nofun).left

/-- Nothing is wrong with a statement that was read but the depth of its condition. -/
theorem fault?_of_spellsStatement (h : SpellsStatement options line ks s)
    (hlexed : Lexed afterDot ks) :
    s.fault? = s.condition.bind fun c => Condition.depthFault? (1 + c.depth) := by
  unfold Statement.fault?
  rw [actionFault?_of_spellsStatement h hlexed]
  cases s with
  | access kind r =>
    have hresource : r.resource.isEmpty = false := by
      obtain ⟨k, body, -, -, as, rs, ws, ss, -, -, hresource, -⟩ := h
      exact hresource.2
    dsimp only [Statement.condition]
    rw [hresource, if_neg Bool.false_ne_true]
    cases hc : r.condition with
    | none => rfl
    | some c =>
      obtain ⟨inner, hspells, hinner⟩ := exists_condition_of_spellsStatement h hlexed hc
      have hcomparisons := comparisonFault?_of_spellsCondition hspells hinner
      exact c.fault?_eq 1 (shaped_of_spellsCondition hspells).joins hcomparisons
  | limit r =>
    obtain ⟨body, -, as, x, y, unit, ss, amount, seconds, -, -, -, -, -, -, -, hzero, -⟩ := h
    exact if_neg hzero

theorem depth_of_spellsStatement (h : SpellsStatement options line ks s) (hlexed : Lexed afterDot ks)
    (hc : s.condition = some c) : c.depth ≤ 2 * options.cap + 1 := by
  cases s with
  | access kind r =>
    obtain ⟨inner, hspells, -⟩ := exists_condition_of_spellsStatement h hlexed hc
    exact (shaped_of_spellsCondition hspells).depth_le
  | limit r => cases hc

end Grammar

end Delegation
