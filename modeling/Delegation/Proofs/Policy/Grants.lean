import Delegation.Config.Matchers
import Delegation.Proofs.Policy.Effective

namespace Delegation

namespace Statement

theorem filterMap_limit?_access (kind : AccessKind) (rules : List AccessRule) :
    (rules.map (access kind)).filterMap (·.limit?) = [] := by
  rw [List.filterMap_map]
  exact List.filterMap_eq_nil_iff.2 fun _ _ => rfl

theorem filterMap_limit?_limit (limits : List LimitRule) :
    (limits.map limit).filterMap (·.limit?) = limits := by
  rw [List.filterMap_map]
  exact List.filterMap_some

end Statement

namespace Document

section

variable [Matchers] {parent child : Document} {options : EvaluateOptions} {request : Request} {r : AccessRule}

theorem limits_merge (parent child : Document) :
    (parent.merge child).limits = parent.limits ++ child.limits := by
  have hparts : (parent.merge child).limits =
      (mergedStatements parent child).filterMap (·.limit?) := rfl
  rw [hparts, mergedStatements]
  simp only [List.filterMap_append, Statement.filterMap_limit?_access,
    Statement.filterMap_limit?_limit, List.nil_append, List.append_nil]

theorem exists_permit_merge_iff : (∃ r ∈ (parent.merge child).rules .permit, r.applies request = true) ↔
    ∃ r ∈ parent.rules .permit, r.applies request = true := by
  constructor
  · exact exists_permit_of_merge
  · rintro ⟨r, hr, ha⟩
    rw [permits_merge]
    exact ⟨r, List.mem_append_left _ hr, ha⟩

/-- What a merge permits depends on the restrictions of both sides, but on the permits of the parent
only. -/
theorem merge_permits_iff (parent child : Document) (options : EvaluateOptions) (request : Request) :
    ((parent.merge child).evaluate options request).permitted = true ↔
      (∃ r ∈ parent.rules .permit, r.applies request = true) ∧
      (∀ r ∈ parent.rules .deny ++ child.rules .deny, r.applies request = false) ∧
      (∀ r ∈ parent.rules .require ++ child.rules .require, r.applies request = true →
        r.isMet options request.context = true) ∧
      ∀ l, LimitRule.governing?
          ((parent.limits ++ child.limits).filter (·.describes request.action)) = some l →
        ∀ used, l.bearing options request.context ≠ .exceeded used := by
  have hdeny : (parent.merge child).rules .deny = _ := rules_merge parent child nofun
  have hrequire : (parent.merge child).rules .require = _ := rules_merge parent child nofun
  rw [permitted_iff_ranked, exists_permitted_iff, forall_level_iff, exists_permit_merge_iff, hdeny,
    hrequire, governingLimit?, limits_merge]

end

def permitting (action resource : String) : AccessRule := ⟨action, resource, none, .high, 1⟩

def dataFiles : Document where
  statements := [.access .permit (permitting "file.*" "/data/**")]
  wellFormed := by decide +kernel

def reportReading : Document where
  statements := [.access .permit (permitting "file.read" "/data/reports/**")]
  wellFormed := by decide +kernel

def requestOf (action resource : String) : Request := ⟨action, resource, ⟨[]⟩⟩

/-- Merged into the wider grant, the narrower one leaves writing permitted. -/
theorem not_merge_within_child : ¬ ∀ (parent child : Document) (options : EvaluateOptions)
    (request : Request), ((parent.merge child).evaluate options request).permitted = true →
    ∃ r ∈ child.rules .permit, r.applies request = true := by
  intro h
  have hp : ((dataFiles.merge reportReading).evaluate {}
      (requestOf "file.write" "/data/reports/q3")).permitted = true := by decide +kernel
  have hno : (reportReading.rules .permit).any
      (·.applies (requestOf "file.write" "/data/reports/q3")) = false := by decide +kernel
  rw [List.any_eq_true.2 (h _ _ _ _ hp)] at hno
  cases hno

/-- What a child without an excess permits, no denial of its parent applies to; and a permit of the parent
applies to it, unless no permit that the child relies on there lies within one of the parent's. -/
theorem permitted_within_parent [Matchers] (parent child : Document) (options : EvaluateOptions)
    (request : Request) (hx : parent.excesses child = [])
    (hp : (child.evaluate options request).permitted = true) :
    (∀ r ∈ parent.rules .deny, r.applies request = false) ∧
      ((∃ r ∈ parent.rules .permit, r.applies request = true) ∨
        ∀ r ∈ child.rules .permit, r.applies request = true → parent.grants r = false) := by
  constructor
  · intro r hr
    exact not_applies_of_permitted (denyExcesses_eq_nil_of_excesses hx hr) hp
  · by_cases hparent : ∃ r ∈ parent.rules .permit, r.applies request = true
    · exact .inl hparent
    · apply Or.inr
      intro r hr ha
      rw [← Bool.not_eq_true]
      intro hg
      exact hparent (exists_permit_of_grants hg ha)

theorem permitted_within_guardedVault :
    guardedVault.excesses guardedReports = [] ∧
      (guardedReports.evaluate {} seniorRead).permitted = true ∧
      (∀ r ∈ guardedVault.rules .deny, r.applies seniorRead = false) ∧
      ((∃ r ∈ guardedVault.rules .permit, r.applies seniorRead = true) ∨
        ∀ r ∈ guardedReports.rules .permit, r.applies seniorRead = true →
          guardedVault.grants r = false) := by
  have hx : guardedVault.excesses guardedReports = [] := by decide +kernel
  have hp : (guardedReports.evaluate {} seniorRead).permitted = true := by decide +kernel
  exact ⟨hx, hp, permitted_within_parent guardedVault guardedReports {} seniorRead hx hp⟩

def secretsDenied : Document where
  statements := [.access .deny (permitting "write" "/secrets")]
  wellFormed := by decide +kernel

def publicWriting : Document where
  statements := [.access .permit (permitting "write" "/public/**")]
  wellFormed := by decide +kernel

/-- A child may hold a permit of its own where its parent has none. -/
theorem not_permitted_within_parent : ¬ ∀ (parent child : Document) (options : EvaluateOptions)
    (request : Request), parent.excesses child = [] →
    (child.evaluate options request).permitted = true →
    ∃ r ∈ parent.rules .permit, r.applies request = true := by
  intro h
  have hx : secretsDenied.excesses publicWriting = [] := by decide +kernel
  have hp : (publicWriting.evaluate {} (requestOf "write" "/public/news")).permitted = true := by
    decide +kernel
  obtain ⟨r, hr, -⟩ := h _ _ _ _ hx hp
  have hnone : secretsDenied.rules .permit = [] := by decide +kernel
  rw [hnone] at hr
  cases hr

end Document

end Delegation
