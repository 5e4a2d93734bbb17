import Delegation.Pattern.Relation
import Delegation.Pattern.Specificity
import Delegation.Policy.Document

namespace Delegation

variable [Matchers]

namespace LimitRule

def describes (limit : LimitRule) (action : String) : Bool :=
  PatternKind.action.describes limit.action action

def specificity (limit : LimitRule) : Specificity := .of limit.action "**"

/-- A lower rate, compared without division. -/
def tighter (a b : LimitRule) : Bool := decide (a.count * b.period < b.count * a.period)

/-- Whether a limit governs rather than one that stands before it. -/
def outranks (a b : LimitRule) : Bool :=
  match a.specificity.order b.specificity with
  | .gt => true
  | .eq => a.tighter b
  | .lt => false

def governing? (limits : List LimitRule) : Option LimitRule :=
  limits.foldl (fun best limit =>
    match best with
    | none => some limit
    | some current => if limit.outranks current then some limit else some current) none

end LimitRule

def Document.governingLimit? (d : Document) (action : String) : Option LimitRule :=
  LimitRule.governing? (d.limits.filter (·.describes action))

end Delegation
