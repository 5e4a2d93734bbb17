import Delegation.Policy.Merge
import Delegation.Policy.Narrowing
import Delegation.Proofs.Decision.Permission
import Delegation.Proofs.Pattern.Soundness

namespace Delegation

namespace LimitRule

variable {a b c : LimitRule} {action : String}

/-- The first limit allows no higher rate than the second, compared without division. -/
def AtMost (a b : LimitRule) : Prop := a.count * b.period ≤ b.count * a.period

theorem atMost_of_not_looser (h : a.looser b = false) : a.AtMost b :=
  Nat.not_lt.1 (of_decide_eq_false h)

theorem AtMost.trans (hab : a.AtMost b) (hbc : b.AtMost c) (hb : 0 < b.period) : a.AtMost c := by
  apply Nat.le_of_mul_le_mul_left _ hb
  calc b.period * (a.count * c.period)
      = a.count * b.period * c.period := by rw [Nat.mul_left_comm, Nat.mul_assoc]
    _ ≤ b.count * a.period * c.period := Nat.mul_le_mul_right _ hab
    _ = b.count * c.period * a.period := Nat.mul_right_comm ..
    _ ≤ c.count * b.period * a.period := Nat.mul_le_mul_right _ hbc
    _ = b.period * (c.count * a.period) := by rw [Nat.mul_right_comm, Nat.mul_comm]

variable [Matchers]

theorem describes_of_covers (h : a.covers b = true) (hb : b.describes action = true) :
    a.describes action = true :=
  Segment.matching_of_covering h hb

theorem overlaps_of_describes (ha : a.describes action = true) (hb : b.describes action = true) :
    a.overlaps b = true :=
  Segment.sharing_of_matching ha hb

end LimitRule

namespace Document

variable [Matchers] {parent child d : Document} {action : String} {limit : LimitRule}

theorem period_pos (h : limit ∈ d.limits) : 0 < limit.period :=
  Statement.limit_of_fault? (fault?_eq_none_of_mem_limits h)

theorem exists_governingLimit? (h : ∃ l ∈ d.limits, l.describes action = true) :
    ∃ g ∈ d.limits, g.describes action = true ∧ d.governingLimit? action = some g := by
  cases hg : d.governingLimit? action with
  | none =>
    obtain ⟨l, hl, hd⟩ := h
    exact absurd hd (ne_true_of_eq_false (governingLimit?_eq_none.1 hg l hl))
  | some g =>
    obtain ⟨hmem, hd⟩ := mem_of_governingLimit? hg
    exact ⟨g, hmem, hd, rfl⟩

theorem limitExcesses_eq_nil : child.limitExcesses limit = [] ↔
    (∃ l ∈ child.limits, l.covers limit = true) ∧
      ∀ l ∈ child.limits, l.overlaps limit = true → l.looser limit = false := by
  have hloose : ((child.limits.filter fun l => l.overlaps limit && l.looser limit).map
      (Excess.loosensLimit · limit)) = [] ↔
      ∀ l ∈ child.limits, l.overlaps limit = true → l.looser limit = false := by
    simp only [List.map_eq_nil_iff, List.filter_eq_nil_iff, Bool.and_eq_true, not_and,
      Bool.not_eq_true]
  rw [limitExcesses, List.append_eq_nil_iff, hloose, ← List.any_eq_true]
  refine and_congr_left fun _ => ?_
  split
  next h => exact ⟨fun _ => h, fun _ => rfl⟩
  next h =>
    split
    · exact ⟨nofun, fun hany => absurd hany h⟩
    · exact ⟨nofun, fun hany => absurd hany h⟩

theorem limitExcesses_eq_nil_of_excesses (hx : parent.excesses child = [])
    (hl : limit ∈ parent.limits) : child.limitExcesses limit = [] :=
  (excesses_eq_nil_iff.1 hx).2.2 limit hl

/-- Whether the document limits an action, and by no limit at a higher rate than the given one. -/
def LimitsWithin (d : Document) (action : String) (limit : LimitRule) : Prop :=
  (∃ l ∈ d.limits, l.describes action = true) ∧
    ∀ l ∈ d.limits, l.describes action = true → l.AtMost limit

theorem limitsWithin_of_limit (hx : child.limitExcesses limit = [])
    (hd : limit.describes action = true) : child.LimitsWithin action limit := by
  obtain ⟨⟨l, hl, hcovers⟩, htight⟩ := limitExcesses_eq_nil.1 hx
  refine ⟨⟨l, hl, LimitRule.describes_of_covers hcovers hd⟩, fun l' hl' hd' => ?_⟩
  exact LimitRule.atMost_of_not_looser (htight l' hl' (LimitRule.overlaps_of_describes hd' hd))

/-- What the parent keeps within a rate, its child does. -/
theorem LimitsWithin.of_parent (h : parent.LimitsWithin action limit) (hx : parent.excesses child = []) :
    child.LimitsWithin action limit := by
  obtain ⟨⟨l, hl, hd⟩, hwithin⟩ := h
  obtain ⟨hsome, htight⟩ := limitsWithin_of_limit (limitExcesses_eq_nil_of_excesses hx hl) hd
  refine ⟨hsome, fun l' hl' hd' => ?_⟩
  exact (htight l' hl' hd').trans (hwithin l hl hd) (period_pos hl)

theorem LimitsWithin.governingLimit? (h : d.LimitsWithin action limit) :
    ∃ g, d.governingLimit? action = some g ∧ g.AtMost limit := by
  obtain ⟨g, hg, hd, hgoverns⟩ := exists_governingLimit? h.1
  exact ⟨g, hgoverns, h.2 g hg hd⟩

end Document

end Delegation
