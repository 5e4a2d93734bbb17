import Delegation.Json.Basic
import Delegation.Policy.Document

namespace Delegation

variable [Matchers]

open Json

/-- A name from a fixed list: the name itself, or an object with that key alone and nothing in it. -/
def nameOf? : Json → Option String
  | .string s => some s
  | .object [(s, .null)] => some s
  | _ => none

def optionalField {α : Type} (fields : List (String × Json)) (key : String) (read : Json → Option α)
    (missing : α) : Option α :=
  match field? fields key with
  | none => some missing
  | some j => read j

def requiredField {α : Type} (fields : List (String × Json)) (key : String)
    (read : Json → Option α) : Option α := (field? fields key).bind read

namespace Value

mutual

def toJson : Value → Json
  | bool b => .bool b
  | number x => .float x
  | text s => .string s
  | array items => .array (toJsonAll items)

def toJsonAll : List Value → List Json
  | [] => []
  | v :: vs => v.toJson :: toJsonAll vs

end

mutual

def ofJson? : Json → Option Value
  | .bool b => some (bool b)
  | .int n => some (number (Binary64.ofInt n))
  | .float x => some (number x)
  | .string s => some (text s)
  | .array items => (ofJsonAll? items).map array
  | .null | .object _ => none

def ofJsonAll? : List Json → Option (List Value)
  | [] => some []
  | j :: js =>
    match ofJson? j, ofJsonAll? js with
    | some v, some vs => some (v :: vs)
    | _, _ => none

end

end Value

namespace Condition

mutual

def toJson : Condition → Json
  | comparison field op value => .object [("type", .string "comparison"), ("field", .string field),
      ("operator", .string op.text), ("value", value.toJson)]
  | and operands => .object [("type", .string "and"), ("operands", .array (toJsonAll operands))]
  | or operands => .object [("type", .string "or"), ("operands", .array (toJsonAll operands))]
  | not operand => .object [("type", .string "not"), ("operand", operand.toJson)]

def toJsonAll : List Condition → List Json
  | [] => []
  | c :: cs => c.toJson :: toJsonAll cs

end

/-- What the fields of a condition say beside its operands. -/
structure Fields where
  type : Option String
  field : Option String
  op : Option Operator
  value : Option Value

def Fields.of (fields : List (String × Json)) : Fields where
  type := requiredField fields "type" text?
  field := requiredField fields "field" text?
  op := requiredField fields "operator" fun j => (nameOf? j).bind Operator.ofText?
  value := requiredField fields "value" Value.ofJson?

mutual

def ofJson? : Json → Option Condition
  | .object fields =>
    let own := Fields.of fields
    match own.type with
    | some "comparison" =>
      match own.field, own.op, own.value with
      | some field, some op, some value => some (comparison field op value)
      | _, _, _ => none
    | some "and" => (operandsOf? fields).map and
    | some "or" => (operandsOf? fields).map or
    | some "not" => (operandOf? fields).map not
    | _ => none
  | _ => none

def operandsOf? : List (String × Json) → Option (List Condition)
  | [] => none
  | ("operands", .array items) :: _ => ofJsonAll? items
  | (key, _) :: fields => if key = "operands" then none else operandsOf? fields

def operandOf? : List (String × Json) → Option Condition
  | [] => none
  | (key, j) :: fields => if key = "operand" then ofJson? j else operandOf? fields

def ofJsonAll? : List Json → Option (List Condition)
  | [] => some []
  | j :: js =>
    match ofJson? j, ofJsonAll? js with
    | some c, some cs => some (c :: cs)
    | _, _ => none

end

end Condition

namespace Statement

def toJson : Statement → Json
  | access kind r =>
    let condition := match r.condition with
      | some c => [("condition", c.toJson)]
      | none => []
    .object ([("type", .string kind.text), ("action", .string r.action), ("resource", .string r.resource)]
      ++ condition ++ [("severity", .string r.severity.text), ("line", .int r.line)])
  | limit r => .object [("type", .string "limit"), ("action", .string r.action), ("count", .int r.count),
      ("period_seconds", .int r.period), ("severity", .string r.severity.text), ("line", .int r.line)]

def severityOf? (fields : List (String × Json)) : Option Severity :=
  optionalField fields "severity" (fun j => (nameOf? j).bind Severity.ofText?) .standard

def lineOf? (fields : List (String × Json)) : Option Nat := optionalField fields "line" word64? 0

def conditionOf? (fields : List (String × Json)) : Option (Option Condition) :=
  optionalField fields "condition"
    (fun j => match j with
      | .null => some none
      | _ => (Condition.ofJson? j).map some)
    none

def accessOf? (fields : List (String × Json)) : Option AccessRule := do
  let action ← requiredField fields "action" text?
  let resource ← requiredField fields "resource" text?
  let condition ← conditionOf? fields
  let severity ← severityOf? fields
  let line ← lineOf? fields
  return { action, resource, condition, severity, line }

def limitOf? (fields : List (String × Json)) : Option LimitRule := do
  let action ← requiredField fields "action" text?
  let count ← requiredField fields "count" word64?
  let period ← requiredField fields "period_seconds" word64?
  let severity ← severityOf? fields
  let line ← lineOf? fields
  return { action, count, period, severity, line }

def ofJson? : Json → Option Statement
  | .object fields =>
    match requiredField fields "type" text? with
    | some "permit" => (accessOf? fields).map (access .permit)
    | some "deny" => (accessOf? fields).map (access .deny)
    | some "require" => (accessOf? fields).map (access .require)
    | some "limit" => (limitOf? fields).map limit
    | _ => none
  | _ => none

end Statement

/-- Why JSON gives no document: it has another shape, or its statements are not well formed. -/
inductive JsonFault
  | shape
  | document (fault : DocumentFault)

namespace Document

def toJson (d : Document) : Json :=
  .object [("statements", .array (d.statements.map (·.toJson)))]

/-- The document of a JSON value. The shape of the whole is looked at first. -/
def ofJson (j : Json) : Except JsonFault Document :=
  match j with
  | .object fields =>
    match field? fields "statements" with
    | some (.array items) =>
      match items.mapM Statement.ofJson? with
      | some statements => (ofStatements statements).mapError .document
      | none => .error .shape
    | _ => .error .shape
  | _ => .error .shape

end Document

end Delegation
