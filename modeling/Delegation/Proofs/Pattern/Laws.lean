import Delegation.Config.Matchers
import Delegation.Proofs.Pattern.Soundness

namespace Delegation

namespace Segment

variable [Matchers] {p q r : Segment} {ps qs rs : List Segment}

theorem covers_refl (hp : p.isAnyDepth = false) : p.covers p = true := by
  cases p with
  | anyDepth => cases hp
  | any => rfl
  | literal => exact beq_self_eq_true _
  | glob => exact beq_self_eq_true _

theorem covers_trans (hpq : p.covers q = true) (hqr : q.covers r = true) : p.covers r = true := by
  cases p <;> cases q <;> cases r <;> simp_all [covers]

theorem covering_refl (ps : List Segment) : covering.holds ps ps = true := by
  apply wildcardMatch_refl
  intro p hp
  rw [hp, covers_refl hp]
  rfl

/-- Two stars of the first pattern may take two stars of the second, and what those take of the third. -/
theorem covering_trans (hpq : covering.holds ps qs = true) (hqr : covering.holds qs rs = true) :
    covering.holds ps rs = true := by
  rw [covering_eq] at hpq hqr ⊢
  refine wildcardMatch_trans (fun p q _ hpq => ?_) hpq hqr
  rw [Bool.and_eq_true, Bool.not_eq_true'] at hpq
  refine ⟨hpq.1, fun r hqr => ?_⟩
  rw [Bool.and_eq_true] at hqr ⊢
  exact ⟨hqr.1, covers_trans hpq.2 hqr.2⟩

theorem overlaps_comm (p q : Segment) : p.overlaps q = q.overlaps p := by
  cases p <;> cases q <;> first | rfl | exact Bool.beq_comm

theorem sharing_comm (ps qs : List Segment) : sharing.holds ps qs = sharing.holds qs ps := by
  induction ps generalizing qs with
  | nil => rw [sharing_nil_right, Alignment.holds_nil, sharing]
  | cons p ps ihp =>
    induction qs with
    | nil => rw [sharing_nil_right, Alignment.holds_nil, sharing]
    | cons q qs ihq =>
      cases hp : p.isAnyDepth with
      | true =>
        rw [sharing_wild_left hp, ihp, ihq]
        cases hq : q.isAnyDepth with
        | true =>
          -- with two stars at both fronts either head may be dropped first
          rw [sharing_wild_left hq, Bool.or_comm]
        | false => rw [sharing_wild_right hq hp]
      | false =>
        cases hq : q.isAnyDepth with
        | true => rw [sharing_wild_right hp hq, sharing_wild_left hq, ihp, ihq]
        | false => rw [sharing_cons_cons hp hq, sharing_cons_cons hq hp, overlaps_comm, ihp]

end Segment

/-- Covering is reflexive and transitive, whatever the patterns are. -/
theorem PatternKind.covers_preorder [Matchers] (kind : PatternKind) (p q r : String) :
    kind.covers p p = true ∧
      (kind.covers p q = true → kind.covers q r = true → kind.covers p r = true) := by
  constructor
  · exact Segment.covering_refl _
  · intro hpq hqr
    exact Segment.covering_trans hpq hqr

theorem PatternKind.covers_preorder_stars :
    action.covers "**.*.**" "**.*.**" = true ∧ action.covers "**.*.**" "*.**.x*y" = true ∧
      action.covers "*.**.x*y" "a.**.*.x*y" = true ∧ action.covers "**.*.**" "a.**.*.x*y" = true := by
  have hpq : action.covers "**.*.**" "*.**.x*y" = true := by decide +kernel
  have hqr : action.covers "*.**.x*y" "a.**.*.x*y" = true := by decide +kernel
  obtain ⟨hrefl, htrans⟩ := covers_preorder action "**.*.**" "*.**.x*y" "a.**.*.x*y"
  exact ⟨hrefl, hpq, hqr, htrans hpq hqr⟩

end Delegation
