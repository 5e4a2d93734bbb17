import Delegation.Pattern.Relation
import Delegation.Policy.Document

namespace Delegation

variable [Matchers]

namespace AccessRule

def overlaps (r s : AccessRule) : Bool :=
  PatternKind.action.overlaps r.action s.action && PatternKind.resource.overlaps r.resource s.resource

/-- The first condition asks for nothing, or for the same as the second. -/
def conditionCovers : Option Condition → Option Condition → Bool
  | none, _ => true
  | some c, some d => c.same d
  | some _, none => false

def covers (broad narrow : AccessRule) : Bool :=
  PatternKind.action.covers broad.action narrow.action &&
    PatternKind.resource.covers broad.resource narrow.resource &&
    conditionCovers broad.condition narrow.condition

end AccessRule

namespace LimitRule

def covers (broad narrow : LimitRule) : Bool := PatternKind.action.covers broad.action narrow.action

def overlaps (a b : LimitRule) : Bool := PatternKind.action.overlaps a.action b.action

/-- A higher rate, compared without division. -/
def looser (a b : LimitRule) : Bool := decide (b.count * a.period < a.count * b.period)

end LimitRule

end Delegation
