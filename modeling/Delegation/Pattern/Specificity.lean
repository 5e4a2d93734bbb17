import Delegation.Pattern.Segment

namespace Delegation

/-- Fewer wildcards come first, then the ranks of the action's segments, then those of the resource's,
each read from left to right. -/
structure Specificity where
  wildcards : Nat
  actionRanks : List Nat
  resourceRanks : List Nat
  deriving DecidableEq

namespace Specificity

def of (action resource : String) : Specificity :=
  let actionSegments := PatternKind.action.pattern action
  let resourceSegments := PatternKind.resource.pattern resource
  { wildcards := (actionSegments ++ resourceSegments).countP Segment.isWildcard
    actionRanks := actionSegments.map Segment.rank
    resourceRanks := resourceSegments.map Segment.rank }

/-- The greater is the more precise. -/
def order (a b : Specificity) : Ordering :=
  (compare b.wildcards a.wildcards).then
    ((compare a.actionRanks b.actionRanks).then (compare a.resourceRanks b.resourceRanks))

end Specificity

end Delegation
