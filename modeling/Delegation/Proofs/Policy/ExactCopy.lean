import Delegation.Config.Matchers
import Delegation.Proofs.Pattern.Laws
import Delegation.Proofs.Policy.Obligation
import Delegation.Proofs.Policy.Rates

namespace Delegation

namespace Value

mutual

theorem same_refl : ∀ v : Value, v.same v = true
  | bool b => beq_self_eq_true b
  | number x => beq_self_eq_true x.key
  | text s => beq_self_eq_true s
  | array items => sameAll_refl items

theorem sameAll_refl : ∀ vs : List Value, sameAll vs vs = true
  | [] => rfl
  | v :: vs => by rw [sameAll, same_refl v, sameAll_refl vs, Bool.true_and]

end

end Value

namespace Condition

mutual

theorem same_refl : ∀ c : Condition, c.same c = true
  | comparison field op value => by
    rw [same, beq_self_eq_true, beq_self_eq_true, value.same_refl]
    rfl
  | and operands => sameAll_refl operands
  | or operands => sameAll_refl operands
  | not operand => same_refl operand

theorem sameAll_refl : ∀ cs : List Condition, sameAll cs cs = true
  | [] => rfl
  | c :: cs => by rw [sameAll, same_refl c, sameAll_refl cs, Bool.true_and]

end

end Condition

section

variable [Matchers]

theorem AccessRule.covers_refl (r : AccessRule) : r.covers r = true := by
  have hcondition : conditionCovers r.condition r.condition = true := by
    cases r.condition with
    | none => rfl
    | some c => exact c.same_refl
  rw [covers, PatternKind.covers, PatternKind.covers, Segment.covering_refl, Segment.covering_refl,
    hcondition]
  rfl

namespace LimitRule

theorem covers_refl (l : LimitRule) : l.covers l = true := Segment.covering_refl _

theorem overlaps_comm (a b : LimitRule) : a.overlaps b = b.overlaps a := Segment.sharing_comm _ _

end LimitRule

end

namespace Document

section

variable [Matchers] {d : Document} {r : AccessRule} {limit : LimitRule}

theorem denyExcesses_self (hr : r ∈ d.rules .deny) : d.denyExcesses r = [] :=
  denyExcesses_eq_nil.2 (.inl ⟨r, hr, r.covers_refl⟩)

theorem obligationExcesses_self (hr : r ∈ d.rules .require) : d.obligationExcesses r = [] :=
  obligationExcesses_eq_nil.2 ⟨r, hr, r.covers_refl⟩

theorem limitExcesses_self (hl : limit ∈ d.limits) : d.limitExcesses limit =
    (d.limits.filter fun l => l.overlaps limit && l.looser limit).map (.loosensLimit · limit) := by
  have hcarried : d.limits.any (·.covers limit) = true :=
    List.any_eq_true.2 ⟨limit, hl, limit.covers_refl⟩
  rw [limitExcesses, if_pos hcarried, List.nil_append]

/-- A copy exceeds its original by each limit that is looser than one it overlaps, and by nothing else. -/
theorem excesses_self (d : Document) : d.excesses d = d.limits.flatMap fun limit =>
    (d.limits.filter fun l => l.overlaps limit && l.looser limit).map (.loosensLimit · limit) := by
  have hdenials : (d.rules .deny).flatMap d.denyExcesses = [] :=
    List.flatMap_eq_nil_iff.2 fun _ => denyExcesses_self
  have hobligations : (d.rules .require).flatMap d.obligationExcesses = [] :=
    List.flatMap_eq_nil_iff.2 fun _ => obligationExcesses_self
  rw [excesses, hdenials, hobligations, List.nil_append, List.nil_append]
  exact congrArg List.flatten (List.map_congr_left fun _ => limitExcesses_self)

/-- An exact copy is a valid delegation just if limits with overlapping actions all have one rate. -/
theorem exact_copy_valid_iff (d : Document) : d.excesses d = [] ↔
    ∀ a ∈ d.limits, ∀ b ∈ d.limits, a.overlaps b = true →
      a.count * b.period = b.count * a.period := by
  simp only [excesses_self, List.flatMap_eq_nil_iff, List.map_eq_nil_iff, List.filter_eq_nil_iff,
    Bool.and_eq_true, not_and, Bool.not_eq_true]
  constructor
  · intro h a ha b hb hover
    have hab : a.AtMost b := LimitRule.atMost_of_not_looser (h b hb a ha hover)
    have hba : b.AtMost a := LimitRule.atMost_of_not_looser (h a ha b hb (a.overlaps_comm b ▸ hover))
    exact Nat.le_antisymm hab hba
  · intro h b hb a ha hover
    exact decide_eq_false (Nat.not_lt.2 (Nat.le_of_eq (h a ha b hb hover)))

end

/-- Few calls of one kind within many of any kind: the narrow limit governs its calls, and the wide one
the rest. -/
def layeredCalls : Document where
  statements := [.limit ⟨"api.*", 100, 3600, .high, 1⟩, .limit ⟨"api.call", 5, 3600, .high, 2⟩]
  wellFormed := by decide +kernel

/-- The wide limit is looser than the narrow one, so its copy is taken for an excess. -/
theorem not_exact_copy_valid : ¬ ∀ d : Document, d.excesses d = [] := by
  intro h
  have hexcess : (layeredCalls.excesses layeredCalls).isEmpty = false := by decide +kernel
  rw [h layeredCalls] at hexcess
  cases hexcess

end Document

end Delegation
