import Delegation.Number.Decimal
import Delegation.Policy.Document
import Delegation.Text.Quoted

namespace Delegation

variable [Matchers]

def inParens (text : List Char) : List Char := '(' :: (text ++ [')'])

namespace Value

mutual

def canonical : Value → List Char
  | bool true => "true".toList
  | bool false => "false".toList
  | number x => x.text
  | text s => quote s.toList
  | array items => '[' :: (joinWith ", ".toList (canonicalAll items) ++ [']'])

def canonicalAll : List Value → List (List Char)
  | [] => []
  | v :: vs => v.canonical :: canonicalAll vs

end

end Value

namespace Condition

/-- Whether a condition is put in parentheses under `and` and under `not`. -/
def isJunction : Condition → Bool
  | and _ | or _ => true
  | _ => false

def isOr : Condition → Bool
  | or _ => true
  | _ => false

def parenthesized (needed : Bool) (text : List Char) : List Char :=
  if needed then inParens text else text

mutual

def canonical : Condition → List Char
  | comparison field op value =>
    field.toList ++ ' ' :: (op.text.toList ++ ' ' :: value.canonical)
  | and operands => joinWith " and ".toList (canonicalAll isJunction operands)
  | or operands => joinWith " or ".toList (canonicalAll isOr operands)
  | not operand => "not ".toList ++ parenthesized operand.isJunction operand.canonical

def canonicalAll (needsParens : Condition → Bool) : List Condition → List (List Char)
  | [] => []
  | c :: cs => parenthesized (needsParens c) c.canonical :: canonicalAll needsParens cs

end

end Condition

/-- The largest unit that divides a period, with the period in that unit. -/
def largestUnit (period : Nat) : Nat × String :=
  if period ≥ 86400 && period % 86400 == 0 then (period / 86400, "days")
  else if period ≥ 3600 && period % 3600 == 0 then (period / 3600, "hours")
  else if period ≥ 60 && period % 60 == 0 then (period / 60, "minutes")
  else (period, "seconds")

def canonicalResource (resource : String) : List Char :=
  if resource = "*" ∨ resource = "**" then resource.toList else quote resource.toList

def canonicalSeverity (severity : Severity) : List Char :=
  if severity = .standard then [] else " severity ".toList ++ severity.text.toList

namespace Statement

def canonical : Statement → List Char
  | access kind r =>
    let condition := match r.condition with
      | some c => " when ".toList ++ c.canonical
      | none => []
    kind.text.toList ++ ' ' :: (r.action.toList ++ " on ".toList ++ canonicalResource r.resource ++
      condition ++ canonicalSeverity r.severity)
  | limit r =>
    let (amount, unit) := largestUnit r.period
    "limit ".toList ++ r.action.toList ++ ' ' :: (Nat.toDigits 10 r.count ++ " per ".toList ++
      Nat.toDigits 10 amount ++ ' ' :: (unit.toList ++ canonicalSeverity r.severity))

def withLineText (s : Statement) : String :=
  toString s.line ++ ": " ++ String.ofList s.canonical

end Statement

def Document.canonical (d : Document) : String :=
  String.ofList (d.statements.flatMap fun s => s.canonical ++ ['\n'])

end Delegation
