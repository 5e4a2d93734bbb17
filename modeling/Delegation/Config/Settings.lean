import Delegation.Config.Matchers
import Delegation.Config.Yaml
import Delegation.Decision.Evaluate
import Delegation.Source.Grammar

namespace Delegation

attribute [local instance (2000)] instPowNat

structure Settings where
  parser : ParseOptions := {}
  evaluator : EvaluateOptions := {}
  deriving DecidableEq

inductive ReadFailure
  | missing
  | notUtf8
  deriving DecidableEq

def ReadFailure.message : ReadFailure → String
  | missing => "No such file or directory (os error 2)"
  | notUtf8 => "stream did not contain valid UTF-8"

inductive SettingsFault
  | unreadable (path : String) (failure : ReadFailure)
  | malformed
  | depthOutOfRange
  | emptyKey (field : String)
  deriving DecidableEq

namespace SettingsFault

def invalid (field reason : String) : String :=
  "invalid config value for '" ++ field ++ "': " ++ reason

def message : SettingsFault → String
  | unreadable path failure => "failed to read config at " ++ path ++ ": " ++ failure.message
  | malformed => "config parse error"
  | depthOutOfRange =>
    invalid "parser.max_condition_depth" ("must be between 1 and " ++ toString nestingCeiling)
  | emptyKey field => invalid field "must not be empty"

end SettingsFault

namespace Settings

/-- The value of a key that may be missing and must not be repeated. -/
def entry? (entries : List (Yaml × Yaml)) (key : String) : Option (Option Yaml) :=
  match entries.filter fun (k, _) => match k with
    | .scalar _ text => text == key.toList
    | _ => false with
  | [] => some none
  | [(_, value)] => some (some value)
  | _ => none

def entriesOf? : Yaml → Option (List (Yaml × Yaml))
  | .mapping entries =>
    if entries.all fun (k, _) => match k with
      | .scalar .. => true
      | _ => false
    then some entries
    else none
  | .scalar true [] => some []
  | _ => none

def read {α : Type} (entries : List (Yaml × Yaml)) (key : String) (reader : Yaml → Option α)
    (standard : α) : Option α :=
  match entry? entries key with
  | some (some value) => reader value
  | some none => some standard
  | none => none

def digitValue (c : Char) : Nat := (Json.hexDigit? c).getD 16

def ofBase? (base : Nat) (digits : List Char) : Option Nat :=
  if digits.isEmpty || !digits.all (digitValue · < base) then none
  else some (digits.foldl (fun n c => base * n + digitValue c) 0)

/-- An unquoted natural number of 64 bits, decimal without leading zeros or in one of three other bases. -/
def natural? : Yaml → Option Nat
  | .scalar true text =>
    let unsigned := match text with
      | '+' :: cs => cs
      | cs => cs
    let n? := match unsigned with
      | '0' :: 'x' :: cs => ofBase? 16 cs
      | '0' :: 'o' :: cs => ofBase? 8 cs
      | '0' :: 'b' :: cs => ofBase? 2 cs
      | '0' :: _ :: _ => none
      | cs => ofBase? 10 cs
    n?.filter (· < 2 ^ (64 : Nat))
  | _ => none

def flag? : Yaml → Option Bool
  | .scalar true text =>
    if ["true", "True", "TRUE"].contains (String.ofList text) then some true
    else if ["false", "False", "FALSE"].contains (String.ofList text) then some false
    else none
  | _ => none

def text? : Yaml → Option String
  | .scalar _ text => some (String.ofList text)
  | _ => none

def parserOf? (node : Yaml) : Option ParseOptions := do
  let entries ← entriesOf? node
  let maxConditionDepth ← read entries "max_condition_depth" natural? ({} : ParseOptions).maxConditionDepth
  let strictTimeUnits ← read entries "strict_time_units" flag? ({} : ParseOptions).strictTimeUnits
  return { maxConditionDepth, strictTimeUnits }

def evaluatorOf? (node : Yaml) : Option EvaluateOptions := do
  let entries ← entriesOf? node
  let limitCountKey ← read entries "limit_count_key" text? ({} : EvaluateOptions).limitCountKey
  let obligationsKey ← read entries "obligations_key" text? ({} : EvaluateOptions).obligationsKey
  return { limitCountKey, obligationsKey }

/-- The settings that a node spells, whether or not they are in range. -/
def ofYaml? (node : Yaml) : Option Settings := do
  let entries ← entriesOf? node
  let parser ← read entries "parser" parserOf? {}
  let evaluator ← read entries "evaluator" evaluatorOf? {}
  return { parser, evaluator }

def isBlankKey (key : String) : Bool := key.toList.all CharSet.whiteSpace.mem

/-- The first setting that is out of range; the depth is looked at first. -/
def fault? (s : Settings) : Option SettingsFault :=
  if s.parser.maxConditionDepth = 0 ∨ nestingCeiling < s.parser.maxConditionDepth then
    some .depthOutOfRange
  else if isBlankKey s.evaluator.limitCountKey then some (.emptyKey "evaluator.limit_count_key")
  else if isBlankKey s.evaluator.obligationsKey then some (.emptyKey "evaluator.obligations_key")
  else none

def ofText (text : String) : Except SettingsFault Settings :=
  match (Yaml.ofText? text.toList).bind ofYaml? with
  | none => .error .malformed
  | some settings =>
    match settings.fault? with
    | some fault => .error fault
    | none => .ok settings

def load (path : String) (bytes : Option ByteArray) : Except SettingsFault Settings :=
  match bytes with
  | none => .error (.unreadable path .missing)
  | some bytes =>
    match String.fromUTF8? bytes with
    | none => .error (.unreadable path .notUtf8)
    | some text => ofText text

/-- The settings of a file, and the standard ones if it is missing or, as is noticed, unusable. -/
def loadOrStandard (path : String) (bytes : Option ByteArray) : Noted Settings :=
  match load path bytes with
  | .ok settings => ⟨[], settings⟩
  | .error (.unreadable _ .missing) => ⟨[], {}⟩
  | .error _ => ⟨[.ignoredConfig], {}⟩

end Settings

end Delegation
