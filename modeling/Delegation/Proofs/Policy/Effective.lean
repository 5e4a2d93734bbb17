import Delegation.Config.Matchers
import Delegation.Policy.Merge
import Delegation.Proofs.Policy.Denial

namespace Delegation

namespace Statement

variable {kind kind' : AccessKind}

theorem filterMap_rule?_access (rules : List AccessRule) :
    (rules.map (access kind')).filterMap (·.rule? kind) = if kind = kind' then rules else [] := by
  rw [List.filterMap_map]
  split
  next h =>
    have hsome : rule? kind ∘ access kind' = some := funext fun _ => if_pos h
    exact hsome ▸ List.filterMap_some
  next h => exact List.filterMap_eq_nil_iff.2 fun _ _ => if_neg h

theorem filterMap_rule?_limit (limits : List LimitRule) :
    (limits.map limit).filterMap (·.rule? kind) = [] := by
  rw [List.filterMap_map]
  exact List.filterMap_eq_nil_iff.2 fun _ _ => rfl

end Statement

namespace Document

section

variable [Matchers] {parent child d : Document} {ds : List Document} {options : EvaluateOptions}
  {request : Request} {kind : AccessKind} {r : AccessRule}

/-- A merge keeps the denials and the obligations of both sides. -/
theorem rules_merge (parent child : Document) (hkind : kind ≠ .permit) :
    (parent.merge child).rules kind = parent.rules kind ++ child.rules kind := by
  have hparts : (parent.merge child).rules kind =
      (mergedStatements parent child).filterMap (·.rule? kind) := rfl
  rw [hparts, mergedStatements]
  simp only [List.filterMap_append, Statement.filterMap_rule?_access, Statement.filterMap_rule?_limit]
  cases kind with
  | permit => exact absurd rfl hkind
  | deny => simp
  | require => simp

/-- Of permits it keeps the parent's, and the child's that one of the parent's covers. -/
theorem permits_merge (parent child : Document) : (parent.merge child).rules .permit =
    parent.rules .permit ++ (child.rules .permit).filter parent.grants := by
  have hparts : (parent.merge child).rules .permit =
      (mergedStatements parent child).filterMap (·.rule? .permit) := rfl
  rw [hparts, mergedStatements]
  simp only [List.filterMap_append, Statement.filterMap_rule?_access, Statement.filterMap_rule?_limit]
  simp

theorem exists_permit_of_grants (hg : parent.grants r = true) (ha : r.applies request = true) :
    ∃ broad ∈ parent.rules .permit, broad.applies request = true := by
  obtain ⟨broad, hbroad, hcovers⟩ := List.any_eq_true.1 hg
  exact ⟨broad, hbroad, AccessRule.applies_of_covers hcovers ha⟩

theorem exists_permit_of_merge (h : ∃ r ∈ (parent.merge child).rules .permit, r.applies request = true) :
    ∃ r ∈ parent.rules .permit, r.applies request = true := by
  obtain ⟨r, hr, ha⟩ := h
  rw [permits_merge, List.mem_append, List.mem_filter] at hr
  rcases hr with hr | ⟨-, hgranted⟩
  · exact ⟨r, hr, ha⟩
  · exact exists_permit_of_grants hgranted ha

theorem exists_permit_of_foldl
    (h : ∃ r ∈ (ds.foldl merge d).rules .permit, r.applies request = true) :
    ∃ r ∈ d.rules .permit, r.applies request = true := by
  induction ds generalizing d with
  | nil => exact h
  | cons child ds ih => exact exists_permit_of_merge (ih h)

theorem mem_rules_foldl (hkind : kind ≠ .permit) {e : Document} (he : e ∈ d :: ds)
    (hr : r ∈ e.rules kind) : r ∈ (ds.foldl merge d).rules kind := by
  induction ds generalizing d e with
  | nil =>
    rw [List.mem_singleton.1 he] at hr
    exact hr
  | cons child ds ih =>
    have hrules := rules_merge d child hkind
    rcases List.mem_cons.1 he with rfl | he
    · exact ih List.mem_cons_self (hrules ▸ List.mem_append_left _ hr)
    · rcases List.mem_cons.1 he with rfl | he
      · exact ih List.mem_cons_self (hrules ▸ List.mem_append_right _ hr)
      · exact ih (List.mem_cons_of_mem _ he) hr

theorem met_of_permitted (h : (d.evaluate options request).permitted = true)
    (hr : r ∈ d.rules .require) (ha : r.applies request = true) :
    r.isMet options request.context = true :=
  (forall_level_iff.1 (permitted_iff_ranked.1 h).2).2.1 r hr ha

/-- What the merged policy of a delegation permits, a permit of the root applies to, no denial of any
generation does, and every obligation of any generation that applies is met. -/
theorem merged_generations_bind (root : Document) (ds : List Document) (options : EvaluateOptions)
    (request : Request) (hp : ((ds.foldl merge root).evaluate options request).permitted = true) :
    (∃ r ∈ root.rules .permit, r.applies request = true) ∧
      ∀ d ∈ root :: ds, (∀ r ∈ d.rules .deny, r.applies request = false) ∧
        ∀ r ∈ d.rules .require, r.applies request = true →
          r.isMet options request.context = true := by
  refine ⟨exists_permit_of_foldl (exists_permit_of_permitted hp), fun d hd => ⟨?_, ?_⟩⟩
  · intro r hr
    exact no_deny_of_permitted hp r (mem_rules_foldl nofun hd hr)
  · intro r hr ha
    exact met_of_permitted hp (mem_rules_foldl nofun hd hr) ha

end

def auditedReports : Document where
  statements := [
    .access .permit ⟨"file.**", "/reports/**", none, .high, 1⟩,
    .access .require ⟨"audit.*", "/reports/**", none, .medium, 2⟩]
  wellFormed := by decide +kernel

def finishedReports : Document where
  statements := [
    .access .permit ⟨"file.read", "/reports/*.txt", some (.comparison "user.level" .atLeast
      (.number (.ofNat 2))), .high, 1⟩,
    .access .permit ⟨"net.fetch", "**", none, .high, 2⟩,
    .access .deny ⟨"file.*", "reports/draft-*", none, .critical, 3⟩]
  wellFormed := by decide +kernel

def reportReader : Request where
  action := "file.read"
  resource := "/reports/march.txt"
  context := ⟨[("user", .object [("level", .int 3)]), ("_obligations_met", .array [.string "audit.log"])]⟩

theorem merged_generations_bind_reportReader :
    let generations := [finishedReports, auditedReports]
    ((generations.foldl merge auditedReports).evaluate {} reportReader).permitted = true ∧
      (∃ r ∈ auditedReports.rules .permit, r.applies reportReader = true) ∧
      ∀ d ∈ auditedReports :: generations,
        (∀ r ∈ d.rules .deny, r.applies reportReader = false) ∧
        ∀ r ∈ d.rules .require, r.applies reportReader = true →
          r.isMet {} reportReader.context = true := by
  have hp : (([finishedReports, auditedReports].foldl merge auditedReports).evaluate {}
      reportReader).permitted = true := by
    refine permitted_iff_ranked.2 ⟨exists_permitted_iff.2 ?_, forall_level_iff.2 ⟨?_, ?_, ?_⟩⟩
    · decide +kernel
    · decide +kernel
    · decide +kernel
    · nofun
  exact ⟨hp, merged_generations_bind auditedReports _ {} reportReader hp⟩

end Document

end Delegation
