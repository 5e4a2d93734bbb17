import Delegation.Config.Matchers
import Delegation.Proofs.Policy.Effective

namespace Delegation

theorem AccessRule.isMet_of_covers [Matchers] {broad narrow : AccessRule} {options : EvaluateOptions}
    {context : Context} (hcovers : PatternKind.action.covers broad.action narrow.action = true)
    (h : narrow.isMet options context = true) : broad.isMet options context = true := by
  obtain ⟨items, performed, hres, hmem, hd⟩ := isMet_iff.1 h
  exact isMet_iff.2 ⟨items, performed, hres, hmem, Segment.matching_of_covering hcovers hd⟩

namespace Document

section

variable [Matchers] {parent child : Document} {options : EvaluateOptions} {request : Request}
  {require : AccessRule}

theorem obligationExcesses_eq_nil : child.obligationExcesses require = [] ↔
    ∃ s ∈ child.rules .require, s.covers require = true := by
  rw [← List.any_eq_true]
  cases hany : (child.rules .require).any (·.covers require) with
  | true =>
    have hnil : child.obligationExcesses require = [] := if_pos hany
    exact iff_of_true hnil rfl
  | false =>
    have hne : child.obligationExcesses require ≠ [] := by
      simp only [obligationExcesses, hany, Bool.false_eq_true, if_false]
      split
      · nofun
      · nofun
    exact iff_of_false hne Bool.false_ne_true

/-- Where an obligation of the parent applies to what a child permits, the child carries it, and it is met
as the child carries it: by its own pattern too, if that covers the pattern of a rule which carries it. -/
theorem obligations_bind_as_carried (parent child : Document) (options : EvaluateOptions)
    (request : Request) (hx : parent.excesses child = [])
    (hp : (child.evaluate options request).permitted = true) :
    ∀ r ∈ parent.rules .require, r.applies request = true →
      (∃ s ∈ child.rules .require, s.covers r = true) ∧
      ∀ s ∈ child.rules .require, s.covers r = true →
        s.applies request = true ∧ s.isMet options request.context = true ∧
        (PatternKind.action.covers r.action s.action = true →
          r.isMet options request.context = true) := by
  intro r hr ha
  have hnil := (excesses_eq_nil_iff.1 hx).2.1 r hr
  apply And.intro (obligationExcesses_eq_nil.1 hnil)
  intro s hs hcovers
  have happlies := AccessRule.applies_of_covers hcovers ha
  have hmet := met_of_permitted hp hs happlies
  exact ⟨happlies, hmet, fun hback => AccessRule.isMet_of_covers hback hmet⟩

theorem permitted_of_rules (hlimits : child.limits = [])
    (hpermit : ∃ r ∈ child.rules .permit, r.applies request = true)
    (hdeny : ∀ r ∈ child.rules .deny, r.applies request = false)
    (hrequire : ∀ r ∈ child.rules .require, r.applies request = true →
      r.isMet options request.context = true) :
    (child.evaluate options request).permitted = true := by
  have hgoverning : child.governingLimit? request.action = none := by
    rw [governingLimit?, hlimits]
    rfl
  apply permitted_iff_ranked.2
  apply And.intro (exists_permitted_iff.2 hpermit)
  apply forall_level_iff.2
  rw [hgoverning]
  refine ⟨hdeny, hrequire, ?_⟩
  intro limit hlimit
  cases hlimit

end

def auditedAnywhere : Document where
  statements := [
    .access .permit ⟨"audit.log", "**", none, .high, 1⟩,
    .access .require ⟨"audit.*", "**", none, .high, 2⟩]
  wellFormed := by decide +kernel

def logging (resource performed : String) : Request :=
  ⟨"audit.log", resource, ⟨[("_obligations_met", .array [.string performed])]⟩⟩

theorem obligations_bind_auditedAnywhere :
    let request := logging "/reports/march.txt" "audit.view"
    auditedReports.excesses auditedAnywhere = [] ∧
      (auditedAnywhere.evaluate {} request).permitted = true ∧
      ∀ r ∈ auditedReports.rules .require, r.applies request = true →
        (∃ s ∈ auditedAnywhere.rules .require, s.covers r = true) ∧
        ∀ s ∈ auditedAnywhere.rules .require, s.covers r = true →
          s.applies request = true ∧ s.isMet {} request.context = true ∧
          (PatternKind.action.covers r.action s.action = true → r.isMet {} request.context = true) := by
  have hx : auditedReports.excesses auditedAnywhere = [] := by decide +kernel
  have hp : (auditedAnywhere.evaluate {}
      (logging "/reports/march.txt" "audit.view")).permitted = true := by
    apply permitted_of_rules rfl
    all_goals decide +kernel
  exact ⟨hx, hp, obligations_bind_as_carried auditedReports auditedAnywhere {} _ hx hp⟩

def loggedData : Document where
  statements := [.access .require ⟨"audit.log", "/data/**", none, .high, 1⟩]
  wellFormed := by decide +kernel

/-- The wider obligation is met by an action that does not meet the parent's. -/
theorem not_obligations_bind : ¬ ∀ (parent child : Document) (options : EvaluateOptions)
    (request : Request), parent.excesses child = [] →
    (child.evaluate options request).permitted = true →
    ∀ r ∈ parent.rules .require, r.applies request = true →
      r.isMet options request.context = true := by
  intro h
  have hx : loggedData.excesses auditedAnywhere = [] := by decide +kernel
  have hp : (auditedAnywhere.evaluate {} (logging "/data/reports" "audit.view")).permitted = true := by
    apply permitted_of_rules rfl
    all_goals decide +kernel
  have hunmet : ¬ ∀ r ∈ loggedData.rules .require,
      r.applies (logging "/data/reports" "audit.view") = true →
      r.isMet {} (logging "/data/reports" "audit.view").context = true := by decide +kernel
  exact hunmet (h _ _ _ _ hx hp)

end Document

end Delegation
