import Delegation.Covenant.Instant
import Delegation.Decision.Limit

namespace Delegation

variable [Matchers]

structure RateStatus where
  exceeded : Bool
  remaining : Option Nat
  limit : Option LimitRule
  deriving DecidableEq

/-- The uses that still count at an instant. -/
def LimitRule.used (limit : LimitRule) (count : Nat) (start now : Instant) : Nat :=
  if (limit.period : Int) ≤ Instant.secondsSince start now then 0 else count

def Document.checkRate (d : Document) (action : String) (count : Nat) (start now : Instant) :
    RateStatus :=
  match d.governingLimit? action with
  | none => ⟨false, none, none⟩
  | some limit =>
    let used := limit.used count start now
    ⟨decide (limit.count ≤ used), some (limit.count - used), some limit⟩

end Delegation
