import Delegation.Policy.Canonical
import Delegation.Proofs.Source.Derivation

namespace Delegation

namespace Value

mutual

def nesting : Value → Nat
  | array items => nestingAll items + 1
  | _ => 0

def nestingAll : List Value → Nat
  | [] => 0
  | v :: vs => max v.nesting (nestingAll vs)

end

theorem nestingAll_le {items : List Value} {n : Nat} (h : ∀ v ∈ items, v.nesting ≤ n) :
    nestingAll items ≤ n := by
  induction items with
  | nil => exact Nat.zero_le n
  | cons v vs ih =>
    have hv := h v List.mem_cons_self
    have hvs := ih fun w hw => h w (List.mem_cons_of_mem _ hw)
    exact Nat.max_le.2 ⟨hv, hvs⟩

end Value

namespace Condition

/-- The levels of a text of some nesting, in parentheses if they are needed. -/
def nestingIn (needed : Bool) (nesting : Nat) : Nat := if needed then nesting + 1 else nesting

mutual

def nesting : Condition → Nat
  | comparison _ _ value => value.nesting
  | and operands => nestingAll isJunction operands
  | or operands => nestingAll isOr operands
  | not operand => nestingIn operand.isJunction operand.nesting + 1

def nestingAll (needsParens : Condition → Bool) : List Condition → Nat
  | [] => 0
  | c :: cs => max (nestingIn (needsParens c) c.nesting) (nestingAll needsParens cs)

end

variable {needsParens : Condition → Bool} {operands : List Condition} {c : Condition} {n : Nat}

theorem nestingAll_le (h : ∀ c ∈ operands, nestingIn (needsParens c) c.nesting ≤ n) :
    nestingAll needsParens operands ≤ n := by
  induction operands with
  | nil => exact Nat.zero_le n
  | cons c cs ih =>
    have hc := h c List.mem_cons_self
    have hcs := ih fun d hd => h d (List.mem_cons_of_mem _ hd)
    exact Nat.max_le.2 ⟨hc, hcs⟩

theorem nestingIn_le_of_mem (h : c ∈ operands) :
    nestingIn (needsParens c) c.nesting ≤ nestingAll needsParens operands := by
  induction operands with
  | nil => cases h
  | cons d cs ih =>
    rcases List.mem_cons.1 h with rfl | h
    · exact Nat.le_max_left _ _
    · exact Nat.le_trans (ih h) (Nat.le_max_right _ _)

theorem nestingIn_of_imp {p q : Bool} (h : p = true → q = true) (n : Nat) :
    nestingIn p n ≤ nestingIn q n := by
  cases p with
  | false =>
    cases q with
    | false => exact Nat.le_refl n
    | true => exact Nat.le_succ n
  | true =>
    have hq := h rfl
    subst hq
    exact Nat.le_refl _

theorem isJunction_of_isOr (h : c.isOr = true) : c.isJunction = true := by
  cases c <;> first | rfl | cases h

theorem nesting_le_nestingIn (needed : Bool) (n : Nat) : n ≤ nestingIn needed n := by
  cases needed with
  | false => exact Nat.le_refl n
  | true => exact Nat.le_succ n

end Condition

namespace Grammar

variable {α : Type} {item : List TokenKind → α → Prop} {separator : TokenKind}
  {ks : List TokenKind} {as : List α} {n : Nat} {c : Condition}

theorem Separated.forall {P : α → Prop} (h : Separated item separator ks as)
    (hitem : ∀ ks a, item ks a → P a) : ∀ a ∈ as, P a := by
  induction h with
  | one ha =>
    intro a hmem
    rw [List.mem_singleton.1 hmem]
    exact hitem _ _ ha
  | more ha _ ih =>
    intro a hmem
    rcases List.mem_cons.1 hmem with rfl | hmem
    · exact hitem _ _ ha
    · exact ih a hmem

theorem Separated.ne_nil (h : Separated item separator ks as) : as ≠ [] := by
  cases h <;> exact List.cons_ne_nil _ _

theorem nesting_scalar {k : TokenKind} {v : Value} (h : scalar? k = some v) : v.nesting = 0 := by
  unfold scalar? at h
  split at h <;> cases h <;> rfl

theorem nesting_of_spellsValue {v : Value} (h : SpellsValue n ks v) : v.nesting ≤ n := by
  induction n generalizing ks v with
  | zero =>
    obtain ⟨k, -, hv⟩ := h
    exact Nat.le_of_eq (nesting_scalar hv)
  | succ n ih =>
    rcases h with ⟨k, -, hv⟩ | ⟨inner, items, -, rfl, hitems⟩
    · rw [nesting_scalar hv]
      exact Nat.zero_le _
    · have hle := Value.nestingAll_le (hitems.forall fun _ _ hv => ih hv)
      exact Nat.succ_le_succ hle

theorem joined_cases (join : List Condition → Condition) {cs : List Condition} (h : cs ≠ []) :
    (∃ c, cs = [c] ∧ joined join cs = c) ∨ joined join cs = join cs := by
  match cs, h with
  | [], h => exact absurd rfl h
  | [c], _ => exact .inl ⟨c, rfl, rfl⟩
  | _ :: _ :: _, _ => exact .inr rfl

theorem nesting_of_conjunction {operand : List TokenKind → Condition → Prop}
    (hoperand : ∀ ks c, operand ks c → Condition.nestingIn c.isJunction c.nesting ≤ n)
    (h : SpellsConjunction operand ks c) : Condition.nestingIn c.isOr c.nesting ≤ n := by
  obtain ⟨cs, hcs, rfl⟩ := h
  have hall := hcs.forall hoperand
  rcases joined_cases .and hcs.ne_nil with ⟨c, rfl, hc⟩ | hc
  · rw [hc]
    have hc' := hall c List.mem_cons_self
    exact Nat.le_trans (Condition.nestingIn_of_imp Condition.isJunction_of_isOr _) hc'
  · rw [hc]
    exact Condition.nestingAll_le hall

theorem nesting_of_disjunction {operand : List TokenKind → Condition → Prop}
    (hoperand : ∀ ks c, operand ks c → Condition.nestingIn c.isJunction c.nesting ≤ n)
    (h : SpellsDisjunction operand ks c) : c.nesting ≤ n := by
  obtain ⟨cs, hcs, rfl⟩ := h
  have hall := hcs.forall fun _ _ hc => nesting_of_conjunction hoperand hc
  rcases joined_cases .or hcs.ne_nil with ⟨c, rfl, hc⟩ | hc
  · rw [hc]
    have hc' := hall c List.mem_cons_self
    exact Nat.le_trans (Condition.nesting_le_nestingIn _ _) hc'
  · rw [hc]
    exact Condition.nestingAll_le hall

variable [Matchers]

theorem nesting_of_spellsComparison (h : SpellsComparison n ks c) :
    Condition.nestingIn c.isJunction c.nesting ≤ n := by
  obtain ⟨fs, k, vs, field, op, v, -, rfl, -, -, hv, -⟩ := h
  exact nesting_of_spellsValue hv

theorem nesting_of_spellsOperand (h : SpellsOperand n ks c) :
    Condition.nestingIn c.isJunction c.nesting ≤ n := by
  induction n generalizing ks c with
  | zero => exact nesting_of_spellsComparison h
  | succ n ih =>
    rcases h with h | ⟨inner, c', -, rfl, hc⟩ | ⟨inner, -, hc⟩
    · exact nesting_of_spellsComparison h
    · exact Nat.succ_le_succ (ih hc)
    · have hle := nesting_of_disjunction (fun _ _ h => ih h) hc
      cases hjunction : c.isJunction with
      | false => exact Nat.le_succ_of_le hle
      | true => exact Nat.succ_le_succ hle

/-- The canonical text of a condition is nested at most as deeply as the text that it was read from. -/
theorem nesting_of_spellsCondition (h : SpellsCondition n ks c) : c.nesting < n := by
  cases n with
  | zero => cases h
  | succ n => exact Nat.lt_succ_of_le (nesting_of_disjunction (fun _ _ h => nesting_of_spellsOperand h) h)

end Grammar

end Delegation
