import Delegation.Config.Matchers
import Delegation.Policy.Merge
import Delegation.Proofs.Decision.Ranking
import Mathlib.Data.List.Basic

namespace Delegation

/-- What a view shows of a list, put back, is the part of the list on which the view is defined. -/
theorem map_filterMap_eq_filter {α β : Type} {view : α → Option β} {make : β → α}
    (h : ∀ a b, view a = some b → make b = a) (l : List α) :
    (l.filterMap view).map make = l.filter fun a => (view a).isSome := by
  rw [List.map_filterMap, ← List.filterMap_eq_filter]
  congr 1
  funext a
  cases hview : view a with
  | none => simp [Option.guard, hview]
  | some b => simp [Option.guard, hview, h a b hview]

namespace Statement

def isRule (kind : AccessKind) (s : Statement) : Bool := (s.rule? kind).isSome

def isLimit (s : Statement) : Bool := s.limit?.isSome

theorem perm_kinds (ss : List Statement) : (ss.filter (·.isRule .deny) ++ ss.filter (·.isRule .require) ++
    ss.filter (·.isLimit) ++ ss.filter (·.isRule .permit)).Perm ss := by
  classical
  rw [List.perm_iff_count]
  intro s
  have hcount : ∀ p : Statement → Bool, (ss.filter p).count s = if p s then ss.count s else 0 := by
    intro p
    split
    next hp => exact List.count_filter hp
    next hp => exact List.count_eq_zero_of_not_mem fun hmem => hp (List.mem_filter.1 hmem).2
  simp only [List.count_append, hcount]
  cases s with
  | limit => exact Nat.zero_add _
  | access kind =>
    cases kind <;> simp [isRule, isLimit, rule?, limit?]

variable [Matchers]

/-- Some permit of the list covers the action and the resource of the statement, and has no condition or an
equal one. -/
def GrantedBy (s : Statement) (ss : List Statement) : Prop :=
  ∃ p ∈ ss, p.isRule .permit = true ∧ PatternKind.action.covers p.action s.action = true ∧
    PatternKind.resource.covers p.resource s.resource = true ∧
    ∀ c ∈ p.condition, ∃ c' ∈ s.condition, c.same c' = true

instance (s : Statement) (ss : List Statement) : Decidable (s.GrantedBy ss) :=
  inferInstanceAs (Decidable (∃ p ∈ ss, _))

end Statement

theorem AccessRule.conditionCovers_iff {c d : Option Condition} : conditionCovers c d = true ↔
    ∀ a ∈ c, ∃ b ∈ d, a.same b = true := by
  cases c <;> cases d <;> simp [conditionCovers]

namespace Document

section

variable [Matchers] {parent : Document} {kind : AccessKind} {r : AccessRule}

theorem map_rules (d : Document) (kind : AccessKind) :
    (d.rules kind).map (.access kind) = d.statements.filter (·.isRule kind) :=
  map_filterMap_eq_filter (fun _ _ => Statement.access_of_rule?) d.statements

theorem map_limits (d : Document) : d.limits.map .limit = d.statements.filter (·.isLimit) :=
  map_filterMap_eq_filter (fun _ _ => Statement.limit_of_limit?) d.statements

theorem grants_iff : parent.grants r = true ↔ (Statement.access .permit r).GrantedBy parent.statements := by
  rw [grants, List.any_eq_true]
  constructor
  · rintro ⟨p, hp, hcovers⟩
    simp only [AccessRule.covers, Bool.and_eq_true, AccessRule.conditionCovers_iff] at hcovers
    exact ⟨.access .permit p, mem_rules.1 hp, rfl, hcovers.1.1, hcovers.1.2, hcovers.2⟩
  · rintro ⟨s, hs, hpermit, haction, hresource, hcondition⟩
    obtain ⟨p, hp⟩ := Option.isSome_iff_exists.1 hpermit
    obtain rfl := Statement.access_of_rule? hp
    refine ⟨p, mem_rules.2 hs, ?_⟩
    simp only [AccessRule.covers, Bool.and_eq_true, AccessRule.conditionCovers_iff]
    exact ⟨⟨haction, hresource⟩, hcondition⟩

theorem map_filter_rules {p : AccessRule → Bool} {q : Statement → Bool}
    (h : ∀ r, q (.access kind r) = p r) (d : Document) :
    ((d.rules kind).filter p).map (.access kind) = (d.statements.filter (·.isRule kind)).filter q := by
  have hp : q ∘ Statement.access kind = p := funext h
  rw [← map_rules, List.filter_map, hp]

theorem decide_grantedBy (parent : Document) (r : AccessRule) :
    decide ((Statement.access .permit r).GrantedBy parent.statements) = parent.grants r := by
  rw [Bool.eq_iff_iff, decide_eq_true_iff, grants_iff]

theorem map_granted (parent child : Document) :
    ((child.rules .permit).filter parent.grants).map (.access .permit) =
      (child.statements.filter (·.isRule .permit)).filter fun s => s.GrantedBy parent.statements :=
  map_filter_rules (decide_grantedBy parent) child

theorem map_dropped (parent child : Document) :
    ((child.rules .permit).filter (!parent.grants ·)).map (.access .permit) =
      (child.statements.filter (·.isRule .permit)).filter fun s => !s.GrantedBy parent.statements :=
  map_filter_rules (fun r => congrArg (!·) (decide_grantedBy parent r)) child

theorem statements_merge (parent child : Document) : (parent.merge child).statements =
    parent.statements.filter (·.isRule .deny) ++ child.statements.filter (·.isRule .deny) ++
    parent.statements.filter (·.isRule .require) ++ child.statements.filter (·.isRule .require) ++
    parent.statements.filter (·.isLimit) ++ child.statements.filter (·.isLimit) ++
    parent.statements.filter (·.isRule .permit) ++
    (child.statements.filter (·.isRule .permit)).filter fun s => s.GrantedBy parent.statements := by
  simp only [merge, mergedStatements, map_rules, map_limits, map_granted]

/-- With the permits that it drops, a merge has the statements of both sides, each as often as they do. -/
theorem merge_perm (parent child : Document) : ((parent.merge child).statements ++
    (child.statements.filter (·.isRule .permit)).filter fun s => !s.GrantedBy parent.statements).Perm
      (parent.statements ++ child.statements) := by
  have hpermits := List.filter_append_perm (fun s => decide (s.GrantedBy parent.statements))
    (child.statements.filter (·.isRule .permit))
  have hkinds := Statement.perm_kinds (parent.statements ++ child.statements)
  rw [statements_merge]
  simp only [List.filter_append, List.append_assoc] at hkinds ⊢
  refine List.Perm.trans ?_ hkinds
  simpa only [List.perm_append_left_iff] using hpermits

/-- A merge of two documents is accepted, as the document of these statements: the denials, the obligations
and the limits of both, the permits of the parent, and those of the child that are granted. There is a notice
for each other permit of the child, and nothing else is lost or doubled. -/
theorem merge_accepted (ps cs : List Statement) (parent child : Document)
    (hparent : ofStatements ps = .ok parent) (hchild : ofStatements cs = .ok child) :
    ofStatements (ps.filter (·.isRule .deny) ++ cs.filter (·.isRule .deny) ++
      ps.filter (·.isRule .require) ++ cs.filter (·.isRule .require) ++
      ps.filter (·.isLimit) ++ cs.filter (·.isLimit) ++ ps.filter (·.isRule .permit) ++
      (cs.filter (·.isRule .permit)).filter fun s => s.GrantedBy ps) = .ok (parent.merge child) ∧
    parent.mergeNotices child = ((cs.filter (·.isRule .permit)).filter fun s => !s.GrantedBy ps).map
      (fun s => .droppedPermit s.action s.resource s.line) ∧
    ((parent.merge child).statements ++
      (cs.filter (·.isRule .permit)).filter fun s => !s.GrantedBy ps).Perm (ps ++ cs) := by
  obtain rfl := statements_of_ofStatements hparent
  obtain rfl := statements_of_ofStatements hchild
  refine ⟨?_, ?_, merge_perm parent child⟩
  · rw [← statements_merge]
    exact ofStatements_statements (parent.merge child)
  · rw [← map_dropped, List.map_map]
    rfl

end

def byEditor : Condition := .comparison "user.role" .equal (.text "editor")

def draftRule (kind : AccessKind) (action resource : String) (condition : Option Condition) (line : Nat) :
    Statement := .access kind ⟨action, resource, condition, .high, line⟩

def draftLimit (count line : Nat) : Statement := .limit ⟨"file.write", count, 3600, .high, line⟩

def editorDrafts : Document where
  statements := [draftLimit 60 1, draftRule .permit "file.*" "/drafts/**" (some byEditor) 2,
    draftRule .deny "file.delete" "**" none 3]
  wellFormed := by decide +kernel

def sharedDrafts : Document where
  statements := [draftRule .permit "file.read" "/drafts/*" (some byEditor) 1,
    draftRule .permit "file.read" "/drafts/plan" none 2, draftLimit 30 3,
    draftRule .deny "file.write" "/drafts/plan" none 4]
  wellFormed := by decide +kernel

/-- Of the permits handed on, the one without the editors' condition is dropped. -/
theorem merge_accepted_editorDrafts :
    ofStatements editorDrafts.statements = .ok editorDrafts ∧
      ofStatements sharedDrafts.statements = .ok sharedDrafts ∧
      ofStatements [draftRule .deny "file.delete" "**" none 3,
        draftRule .deny "file.write" "/drafts/plan" none 4, draftLimit 60 1, draftLimit 30 3,
        draftRule .permit "file.*" "/drafts/**" (some byEditor) 2,
        draftRule .permit "file.read" "/drafts/*" (some byEditor) 1] =
          .ok (editorDrafts.merge sharedDrafts) ∧
      editorDrafts.mergeNotices sharedDrafts = [.droppedPermit "file.read" "/drafts/plan" 2] ∧
      ((editorDrafts.merge sharedDrafts).statements ++
        [draftRule .permit "file.read" "/drafts/plan" none 2]).Perm
          (editorDrafts.statements ++ sharedDrafts.statements) := by
  have hparent := ofStatements_statements editorDrafts
  have hchild := ofStatements_statements sharedDrafts
  exact ⟨hparent, hchild, merge_accepted _ _ _ _ hparent hchild⟩

end Document

end Delegation
