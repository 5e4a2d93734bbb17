import Delegation.Policy.Scope

namespace Delegation

variable [Matchers]

/-- A way in which a child goes beyond its parent. -/
inductive Excess
  | permitsDenied (child parent : AccessRule)
  | narrowsObligation (child parent : AccessRule)
  | omitsObligation (parent : AccessRule)
  | narrowsLimit (child parent : LimitRule)
  | omitsLimit (parent : LimitRule)
  | loosensLimit (child parent : LimitRule)

namespace Excess

/-- The child's statement at fault, if the fault is not that one is missing. -/
def child? : Excess → Option Statement
  | permitsDenied child _ => some (.access .permit child)
  | narrowsObligation child _ => some (.access .require child)
  | narrowsLimit child _ | loosensLimit child _ => some (.limit child)
  | omitsObligation _ | omitsLimit _ => none

def parent : Excess → Statement
  | permitsDenied _ rule => .access .deny rule
  | narrowsObligation _ rule | omitsObligation rule => .access .require rule
  | narrowsLimit _ rule | omitsLimit rule | loosensLimit _ rule => .limit rule

def message : Excess → String
  | permitsDenied child _ =>
    "child permits '" ++ child.action ++ "' on '" ++ child.resource ++ "' despite parent denial"
  | narrowsObligation _ rule =>
    "child narrows obligation '" ++ rule.action ++ "' on '" ++ rule.resource ++ "' required by parent"
  | omitsObligation rule =>
    "child omits obligation '" ++ rule.action ++ "' on '" ++ rule.resource ++ "' required by parent"
  | narrowsLimit _ rule => "child narrows limit on '" ++ rule.action ++ "' imposed by parent"
  | omitsLimit rule => "child omits limit on '" ++ rule.action ++ "' imposed by parent"
  | loosensLimit child rule =>
    "child limit on '" ++ child.action ++ "' allows " ++ toString child.count ++ " per " ++
      toString child.period ++ " seconds, looser than parent's " ++ toString rule.count ++ " per " ++
      toString rule.period ++ " seconds"

end Excess

namespace Document

def denyExcesses (child : Document) (deny : AccessRule) : List Excess :=
  if (child.rules .deny).any (·.covers deny) then []
  else ((child.rules .permit).filter (·.overlaps deny)).map (.permitsDenied · deny)

def obligationExcesses (child : Document) (require : AccessRule) : List Excess :=
  let requires := child.rules .require
  if requires.any (·.covers require) then []
  else
    match requires.find? (·.overlaps require) with
    | some narrower => [.narrowsObligation narrower require]
    | none => [.omitsObligation require]

def limitExcesses (child : Document) (limit : LimitRule) : List Excess :=
  let limits := child.limits
  let uncarried :=
    if limits.any (·.covers limit) then []
    else
      match limits.find? (·.overlaps limit) with
      | some narrower => [.narrowsLimit narrower limit]
      | none => [.omitsLimit limit]
  uncarried ++
    (limits.filter fun l => l.overlaps limit && l.looser limit).map (.loosensLimit · limit)

/-- The ways in which a child goes beyond its parent; none if it is a valid delegation. -/
def excesses (parent child : Document) : List Excess :=
  (parent.rules .deny).flatMap child.denyExcesses ++
    (parent.rules .require).flatMap child.obligationExcesses ++
    parent.limits.flatMap child.limitExcesses

/-- A valid delegation exceeds no single statement of its parent. -/
theorem excesses_eq_nil_iff {parent child : Document} : parent.excesses child = [] ↔
    (∀ r ∈ parent.rules .deny, child.denyExcesses r = []) ∧
    (∀ r ∈ parent.rules .require, child.obligationExcesses r = []) ∧
    ∀ l ∈ parent.limits, child.limitExcesses l = [] := by
  rw [excesses, List.append_eq_nil_iff, List.append_eq_nil_iff, List.flatMap_eq_nil_iff,
    List.flatMap_eq_nil_iff, List.flatMap_eq_nil_iff, and_assoc]

end Document

end Delegation
