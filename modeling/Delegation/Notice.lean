namespace Delegation

inductive Notice
  | unknownUnit (unit : String) (line : Nat)
  | droppedPermit (action resource : String) (line : Nat)
  | ignoredConfig
  deriving DecidableEq

namespace Notice

def message : Notice → String
  | unknownUnit .. => "unknown time unit in limit statement; treating as seconds"
  | droppedPermit .. => "dropping child permit not granted by parent"
  | ignoredConfig => "ignoring engine config"

def fields : Notice → List (String × String)
  | unknownUnit unit line => [("unit", unit), ("line", toString line)]
  | droppedPermit action resource line =>
    [("action", action), ("resource", resource), ("line", toString line)]
  | ignoredConfig => []

end Notice

/-- A result with what was noticed on the way to it. -/
structure Noted (α : Type) where
  notices : List Notice
  result : α

end Delegation
