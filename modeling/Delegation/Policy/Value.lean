import Delegation.Number.Binary64

namespace Delegation

inductive Value
  | bool (b : Bool)
  | number (x : Binary64)
  | text (s : String)
  | array (items : List Value)

namespace Value

def isArray : Value → Bool
  | array _ => true
  | _ => false

mutual

def hasEmptyArray : Value → Bool
  | array items => items.isEmpty || anyEmptyArray items
  | _ => false

def anyEmptyArray : List Value → Bool
  | [] => false
  | v :: vs => v.hasEmptyArray || anyEmptyArray vs

end

mutual

def same : Value → Value → Bool
  | bool b, bool b' => b == b'
  | number x, number x' => x.same x'
  | text s, text s' => s == s'
  | array items, array items' => sameAll items items'
  | _, _ => false

def sameAll : List Value → List Value → Bool
  | [], [] => true
  | v :: vs, v' :: vs' => v.same v' && sameAll vs vs'
  | _, _ => false

end

end Value

end Delegation
