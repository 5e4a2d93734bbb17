import Delegation.Decision.Context
import Delegation.Policy.Document

namespace Delegation

variable [Matchers]

/-- Whether two scalars of one type are equal; nothing for other pairs. -/
def scalarEqual? (actual : Json) (expected : Value) : Option Bool :=
  match actual, expected with
  | .string s, .text t => some (s == t)
  | .bool b, .bool c => some (b == c)
  | _, .number y => actual.number?.map (·.same y)
  | _, _ => none

def numericOrder? (actual : Json) (expected : Value) : Option Ordering :=
  match expected with
  | .number y => actual.number?.map fun x => compare x.key y.key
  | _ => none

def Json.isScalar : Json → Bool
  | .string _ | .int _ | .float _ | .bool _ => true
  | _ => false

def member? (actual : Json) (expected : Value) : Option Bool :=
  match expected with
  | .array items =>
    if actual.isScalar then some (items.any fun item => scalarEqual? actual item == some true)
    else none
  | _ => none

def occursIn (part : List Char) : List Char → Bool
  | [] => part.isEmpty
  | c :: cs => part.isPrefixOf (c :: cs) || occursIn part cs

/-- Whether an array has an item, or a text a part; nothing for other pairs. -/
def contained? (actual : Json) (expected : Value) : Option Bool :=
  match actual, expected with
  | .array items, _ => some (items.any fun item => scalarEqual? item expected == some true)
  | .string s, .text t => some (occursIn t.toList s.toList)
  | _, _ => none

/-- Whether a relation between two texts holds; false for other pairs. -/
def textTest (test : List Char → List Char → Bool) (actual : Json) (expected : Value) : Bool :=
  match actual, expected with
  | .string s, .text t => test s.toList t.toList
  | _, _ => false

/-- An invalid expression occurs nowhere. -/
def regexOccurs (text pattern : List Char) : Bool :=
  (Matchers.regex? pattern).any (· text)

namespace Operator

def holds (op : Operator) (actual : Json) (expected : Value) : Bool :=
  match op with
  | equal => scalarEqual? actual expected == some true
  | notEqual => scalarEqual? actual expected == some false
  | less => numericOrder? actual expected == some .lt
  | greater => numericOrder? actual expected == some .gt
  | atMost => (numericOrder? actual expected).any (· != .gt)
  | atLeast => (numericOrder? actual expected).any (· != .lt)
  | oneOf => member? actual expected == some true
  | noneOf => member? actual expected == some false
  | contains => contained? actual expected == some true
  | lacks => contained? actual expected == some false
  | startsWith => textTest (fun s t => t.isPrefixOf s) actual expected
  | endsWith => textTest (fun s t => t.isSuffixOf s) actual expected
  | matchesRegex => textTest regexOccurs actual expected

end Operator

namespace Condition

mutual

def holds (context : Context) : Condition → Bool
  | comparison field op value => (context.resolve field).any fun actual => op.holds actual value
  | and operands => allHold context operands
  | or operands => anyHolds context operands
  | not operand => !operand.holds context

def allHold (context : Context) : List Condition → Bool
  | [] => true
  | c :: cs => c.holds context && allHold context cs

def anyHolds (context : Context) : List Condition → Bool
  | [] => false
  | c :: cs => c.holds context || anyHolds context cs

end

end Condition

end Delegation
