import Delegation.Notice
import Delegation.Policy.Scope

namespace Delegation

variable [Matchers]

namespace Document

theorem fault?_eq_none_of_mem_rules {d : Document} {kind : AccessKind} {r : AccessRule}
    (h : r ∈ d.rules kind) : (Statement.access kind r).fault? = none := by
  obtain ⟨s, hs, hr⟩ := List.mem_filterMap.1 h
  rw [Statement.access_of_rule? hr]
  exact d.wellFormed s hs

theorem fault?_eq_none_of_mem_limits {d : Document} {l : LimitRule} (h : l ∈ d.limits) :
    (Statement.limit l).fault? = none := by
  obtain ⟨s, hs, hl⟩ := List.mem_filterMap.1 h
  rw [Statement.limit_of_limit? hl]
  exact d.wellFormed s hs

def grants (parent : Document) (permit : AccessRule) : Bool :=
  (parent.rules .permit).any (·.covers permit)

def mergedStatements (parent child : Document) : List Statement :=
  (parent.rules .deny).map (.access .deny) ++ (child.rules .deny).map (.access .deny) ++
    (parent.rules .require).map (.access .require) ++ (child.rules .require).map (.access .require) ++
    parent.limits.map .limit ++ child.limits.map .limit ++
    (parent.rules .permit).map (.access .permit) ++
    ((child.rules .permit).filter parent.grants).map (.access .permit)

theorem mergedStatements_wellFormed (parent child : Document) :
    ∀ s ∈ mergedStatements parent child, s.fault? = none := by
  intro s hs
  simp only [mergedStatements, List.mem_append, List.mem_map, List.mem_filter] at hs
  rcases hs with ((((((h | h) | h) | h) | h) | h) | h) | h
  all_goals obtain ⟨r, hr, rfl⟩ := h
  · exact fault?_eq_none_of_mem_rules hr
  · exact fault?_eq_none_of_mem_rules hr
  · exact fault?_eq_none_of_mem_rules hr
  · exact fault?_eq_none_of_mem_rules hr
  · exact fault?_eq_none_of_mem_limits hr
  · exact fault?_eq_none_of_mem_limits hr
  · exact fault?_eq_none_of_mem_rules hr
  · exact fault?_eq_none_of_mem_rules hr.1

def merge (parent child : Document) : Document :=
  ⟨mergedStatements parent child, mergedStatements_wellFormed parent child⟩

/-- What is told of a merge: each permit of the child that is dropped. -/
def mergeNotices (parent child : Document) : List Notice :=
  ((child.rules .permit).filter (!parent.grants ·)).map fun r =>
    .droppedPermit r.action r.resource r.line

end Document

end Delegation
