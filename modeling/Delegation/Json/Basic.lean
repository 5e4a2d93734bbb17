import Delegation.Number.Binary64

namespace Delegation

attribute [local instance (2000)] instPowNat

inductive Json
  | null
  | bool (b : Bool)
  | int (n : Int)
  | float (x : Binary64)
  | string (s : String)
  | array (items : List Json)
  | object (fields : List (String × Json))

namespace Json

def field? (fields : List (String × Json)) (key : String) : Option Json := fields.lookup key

/-- The fields with one more; a later value for a key takes the place of the earlier. -/
def withField (key : String) (value : Json) : List (String × Json) → List (String × Json)
  | [] => [(key, value)]
  | (key', value') :: fields =>
    if key = key' then (key, value) :: fields else (key', value') :: withField key value fields

def number? : Json → Option Binary64
  | int n => some (Binary64.ofInt n)
  | float x => some x
  | _ => none

def word64? : Json → Option Nat
  | int n => if 0 ≤ n ∧ n < 2 ^ (64 : Nat) then some n.toNat else none
  | _ => none

def text? : Json → Option String
  | string s => some s
  | _ => none

end Json

end Delegation
