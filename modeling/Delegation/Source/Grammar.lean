import Delegation.Notice
import Delegation.Policy.Document
import Delegation.Source.Token

namespace Delegation

variable [Matchers]

attribute [local instance (2000)] instPowNat

inductive Quantity
  | count
  | period
  deriving DecidableEq

def Quantity.describe : Quantity → String
  | count => "limit count"
  | period => "period length"

inductive Wanted
  | statement
  | lineEnd
  | actionPattern
  | actionSegment
  | keyword (k : Keyword)
  | resource
  | quantity (q : Quantity)
  | timeUnit
  | severityLevel
  | fieldName
  | fieldSegment
  | operator
  | value
  | closing (kind : TokenKind)
  deriving DecidableEq

def Wanted.describe : Wanted → String
  | statement => "'permit', 'deny', 'require' or 'limit'"
  | lineEnd => "end of line after statement"
  | actionPattern => "action pattern"
  | actionSegment => "action segment after '.'"
  | keyword k => (TokenKind.keyword k).describe
  | resource => "resource"
  | quantity q => q.describe
  | timeUnit => "time unit (seconds, minutes, hours or days)"
  | severityLevel => "severity level"
  | fieldName => "field name"
  | fieldSegment => "field segment after '.'"
  | operator => "comparison operator"
  | value => "value (string, number, boolean or array)"
  | closing kind => kind.describe

inductive GrammarFault
  | expected (what : Wanted)
  | emptyResource
  | notWhole (q : Quantity)
  | unknownUnit (unit : String)
  | periodTooLarge
  | periodZero
  | unknownSeverity (word : String)
  | tooDeep (cap : Nat)
  | arrayNeeded (op : Operator)
  | patternNeeded
  | badRegex (pattern : String)
  deriving DecidableEq

def GrammarFault.message (found : Option TokenKind) : GrammarFault → String
  | expected what =>
    "expected " ++ what.describe ++ ", found " ++ (found.map (·.describe)).getD endOfInput
  | emptyResource => "empty resource pattern"
  | notWhole q => q.describe ++ " must be a non-negative whole number"
  | unknownUnit unit =>
    "unknown time unit '" ++ unit ++ "' (expected seconds, minutes, hours or days)"
  | periodTooLarge => "limit period is too large"
  | periodZero => "limit period must be greater than zero"
  | unknownSeverity word => Severity.unknown word
  | tooDeep cap => "condition nesting exceeds the maximum depth of " ++ toString cap
  | arrayNeeded op => "operator '" ++ op.text ++ "' requires an array value"
  | patternNeeded => "operator 'matches' requires a string pattern"
  | badRegex pattern => "invalid regex '" ++ pattern ++ "'"

/-- A fault and the tokens left where it was met. -/
structure Refusal where
  fault : GrammarFault
  tokens : List Token
  deriving DecidableEq

structure ParseOptions where
  maxConditionDepth : Nat := 32
  strictTimeUnits : Bool := false
  deriving DecidableEq

def nestingCeiling : Nat := 64

def ParseOptions.cap (options : ParseOptions) : Nat :=
  min options.maxConditionDepth nestingCeiling

def maxCount : Nat := 2 ^ (64 : Nat) - 1

def unitSeconds? : String → Option Nat
  | "second" | "seconds" => some 1
  | "minute" | "minutes" => some 60
  | "hour" | "hours" => some 3600
  | "day" | "days" => some 86400
  | _ => none

namespace Grammar

/-- What was read from the front of some tokens, with those that are left. -/
structure Parsed (α : Type) (before : List Token) where
  value : α
  rest : List Token
  shorter : rest.length < before.length

/-- The same for what may be missing. -/
structure Trailing (α : Type) (before : List Token) where
  value : α
  rest : List Token
  notLonger : rest.length ≤ before.length

abbrev Production (α : Type) := (tokens : List Token) → Except Refusal (Parsed α tokens)

def refuse {α : Type} (fault : GrammarFault) (tokens : List Token) : Except Refusal α :=
  .error ⟨fault, tokens⟩

def token (kind : TokenKind) (what : Wanted) : Production Unit
  | [] => refuse (.expected what) []
  | t :: rest =>
    if t.kind = kind then .ok ⟨(), rest, by simp⟩ else refuse (.expected what) (t :: rest)

def keyword (k : Keyword) : Production Unit := token (.keyword k) (.keyword k)

def one {α : Type} (make : TokenKind → Option α) (what : Wanted) : Production α
  | [] => refuse (.expected what) []
  | t :: rest =>
    match make t.kind with
    | some a => .ok ⟨a, rest, by simp⟩
    | none => refuse (.expected what) (t :: rest)

def segments (segment? : TokenKind → Option (List Char)) (what : Wanted) :
    (tokens : List Token) → Except Refusal (Trailing (List (List Char)) tokens)
  | [] => .ok ⟨[], [], by simp⟩
  | t :: rest =>
    if t.kind = .dot then
      match rest with
      | [] => refuse (.expected what) []
      | s :: rest =>
        match segment? s.kind with
        | none => refuse (.expected what) (s :: rest)
        | some segment =>
          match segments segment? what rest with
          | .error e => .error e
          | .ok ⟨more, rest, h⟩ => .ok ⟨segment :: more, rest, by simp only [List.length_cons]; omega⟩
    else .ok ⟨[], t :: rest, by simp⟩

/-- A path: a first segment and further ones after dots. -/
def path (first? segment? : TokenKind → Option (List Char)) (wantFirst wantSegment : Wanted) :
    Production String := fun tokens => do
  let ⟨first, rest, h⟩ ← one first? wantFirst tokens
  let ⟨more, rest, h'⟩ ← segments segment? wantSegment rest
  return ⟨String.ofList (joinWith ['.'] (first :: more)), rest, by omega⟩

def wordText? : TokenKind → Option (List Char)
  | .word name => some name.toList
  | _ => none

/-- Keywords are plain words after a dot. -/
def dottedText? : TokenKind → Option (List Char)
  | .word name => some name.toList
  | .keyword k => some k.text.toList
  | _ => none

def wildcardText? : TokenKind → Option (List Char)
  | .any => some ['*']
  | .anyDepth => some ['*', '*']
  | _ => none

def action : Production String :=
  path (fun k => (wordText? k).or (wildcardText? k)) (fun k => (dottedText? k).or (wildcardText? k))
    .actionPattern .actionSegment

def field : Production String := path wordText? dottedText? .fieldName .fieldSegment

def resourceText? : TokenKind → Option String
  | .text s => some s
  | .word name => some name
  | .any => some "*"
  | .anyDepth => some "**"
  | _ => none

def resource : Production String := fun tokens =>
  match one resourceText? .resource tokens with
  | .ok ⟨value, rest, h⟩ => if value.isEmpty then refuse .emptyResource tokens else .ok ⟨value, rest, h⟩
  | .error e => .error e

def severityClause : (tokens : List Token) → Except Refusal (Trailing Severity tokens)
  | [] => .ok ⟨.standard, [], by simp⟩
  | t :: rest =>
    if t.kind = .keyword .severity then
      match rest with
      | [] => refuse (.expected .severityLevel) []
      | s :: rest =>
        match s.kind with
        | .word level =>
          match Severity.ofText? level with
          | some severity => .ok ⟨severity, rest, by simp only [List.length_cons]; omega⟩
          | none => refuse (.unknownSeverity level) (s :: rest)
        | _ => refuse (.expected .severityLevel) (s :: rest)
    else .ok ⟨.standard, t :: rest, by simp⟩

/-- The whole number of at most 64 bits that a number is; two to the 64th counts as the largest. -/
def quantity? (x : Binary64) : Option Nat :=
  match x.toNat? with
  | some n => if n ≤ maxCount + 1 then some (min n maxCount) else none
  | none => none

def quantity (q : Quantity) : Production Nat
  | [] => refuse (.expected (.quantity q)) []
  | t :: rest =>
    match t.kind with
    | .number x =>
      match quantity? x with
      | some n => .ok ⟨n, rest, by simp⟩
      | none => refuse (.notWhole q) (t :: rest)
    | _ => refuse (.expected (.quantity q)) (t :: rest)

def separated {α : Type} (item : Production α) (separator : TokenKind) (tokens : List Token) :
    Except Refusal (Parsed (List α) tokens) := do
  let ⟨first, rest, h⟩ ← item tokens
  match rest, h with
  | [], h => return ⟨[first], [], h⟩
  | t :: rest, h =>
    if t.kind = separator then
      let ⟨more, rest', h'⟩ ← separated item separator rest
      return ⟨first :: more, rest', by simp only [List.length_cons] at h; omega⟩
    else return ⟨[first], t :: rest, h⟩
termination_by tokens.length
decreasing_by simp only [List.length_cons] at h; omega

def value (cap : Nat) : (levels : Nat) → Production Value
  | _, [] => refuse (.expected .value) []
  | levels, t :: rest =>
    match t.kind with
    | .text s => .ok ⟨.text s, rest, by simp⟩
    | .number x => .ok ⟨.number x, rest, by simp⟩
    | .word "true" => .ok ⟨.bool true, rest, by simp⟩
    | .word "false" => .ok ⟨.bool false, rest, by simp⟩
    | .openBracket =>
      match levels with
      | 0 => refuse (.tooDeep cap) (t :: rest)
      | levels + 1 => do
        let ⟨items, rest', h⟩ ← separated (value cap levels) .comma rest
        let ⟨_, rest', h'⟩ ← token .closeBracket (.closing .closeBracket) rest'
        return ⟨.array items, rest', by simp only [List.length_cons]; omega⟩
    | _ => refuse (.expected .value) (t :: rest)

def operator? : TokenKind → Option Operator
  | .operator op => some op
  | .word name => Operator.ofText? name
  | _ => none

def operandFault? (op : Operator) (value : Value) : Option GrammarFault :=
  if op.expectsArray && !value.isArray then some (.arrayNeeded op)
  else if op = .matchesRegex then
    match value with
    | .text pattern => if isRegex pattern then none else some (.badRegex pattern)
    | _ => some .patternNeeded
  else none

def comparison (cap levels : Nat) : Production Condition := fun tokens => do
  let ⟨field, rest, h⟩ ← field tokens
  let ⟨op, rest, h'⟩ ← one operator? .operator rest
  let ⟨literal, rest', h''⟩ ← value cap levels rest
  match operandFault? op literal with
  | some fault => refuse fault rest
  | none => return ⟨.comparison field op literal, rest', by omega⟩

/-- A single operand stands for itself. -/
def joined (join : List Condition → Condition) : List Condition → Condition
  | [c] => c
  | cs => join cs

def conjunction (operand : Production Condition) : Production Condition := fun tokens => do
  let ⟨cs, rest, h⟩ ← separated operand (.keyword .and) tokens
  return ⟨joined .and cs, rest, h⟩

/-- Operands joined by `or`, each made of operands joined by `and`. -/
def disjunction (operand : Production Condition) : Production Condition := fun tokens => do
  let ⟨cs, rest, h⟩ ← separated (conjunction operand) (.keyword .or) tokens
  return ⟨joined .or cs, rest, h⟩

def operand (cap : Nat) : (levels : Nat) → Production Condition
  | levels, tokens =>
    match tokens with
    | [] => comparison cap levels []
    | t :: rest =>
      match t.kind with
      | .keyword .not =>
        match levels with
        | 0 => refuse (.tooDeep cap) rest
        | levels + 1 => do
          let ⟨c, rest, h⟩ ← operand cap levels rest
          return ⟨.not c, rest, by simp only [List.length_cons]; omega⟩
      | .openParen =>
        match levels with
        | 0 => refuse (.tooDeep cap) rest
        | levels + 1 => do
          let ⟨c, rest, h⟩ ← disjunction (operand cap levels) rest
          let ⟨_, rest, h'⟩ ← token .closeParen (.closing .closeParen) rest
          return ⟨c, rest, by simp only [List.length_cons]; omega⟩
      | _ => comparison cap levels (t :: rest)

/-- A condition with at most `cap` levels of nesting, itself the first. -/
def condition (cap : Nat) : Production Condition := fun tokens =>
  match cap with
  | 0 => refuse (.tooDeep cap) tokens
  | levels + 1 => disjunction (operand cap levels) tokens

def whenClause (cap : Nat) : (tokens : List Token) → Except Refusal (Trailing (Option Condition) tokens)
  | [] => .ok ⟨none, [], by simp⟩
  | t :: rest =>
    if t.kind = .keyword .when then do
      let ⟨c, rest, h⟩ ← condition cap rest
      return ⟨some c, rest, by simp only [List.length_cons]; omega⟩
    else .ok ⟨none, t :: rest, by simp⟩

def accessRule (cap line : Nat) : Production AccessRule := fun tokens => do
  let ⟨action, rest, h₁⟩ ← action tokens
  let ⟨_, rest, h₂⟩ ← keyword .on rest
  let ⟨resource, rest, h₃⟩ ← resource rest
  let ⟨condition, rest, h₄⟩ ← whenClause cap rest
  let ⟨severity, rest, h₅⟩ ← severityClause rest
  return ⟨{ action, resource, condition, severity, line }, rest, by omega⟩

/-- A limit as written, up to its unit of time, with the tokens from the unit on. -/
structure WrittenLimit where
  action : String
  count : Nat
  amount : Nat
  unit : String
  unitLine : Nat
  unitTokens : List Token

def unitWord? : TokenKind → Option String
  | .word name => some name
  | _ => none

def writtenLimit : Production WrittenLimit := fun tokens => do
  let ⟨action, rest, h₁⟩ ← action tokens
  let ⟨count, rest, h₂⟩ ← quantity .count rest
  let ⟨_, rest, h₃⟩ ← keyword .per rest
  let ⟨amount, rest, h₄⟩ ← quantity .period rest
  let ⟨unit, rest', h₅⟩ ← one unitWord? .timeUnit rest
  let unitLine := (rest.head?.map (·.position.line)).getD 0
  return ⟨{ action, count, amount, unit, unitLine, unitTokens := rest }, rest', by omega⟩

def limitRule (line seconds : Nat) (written : WrittenLimit) (tokens : List Token) :
    Except Refusal (Trailing LimitRule tokens) := do
  let period := written.amount * seconds
  if period > maxCount then refuse .periodTooLarge written.unitTokens
  else if period = 0 then refuse .periodZero written.unitTokens
  else
    let ⟨severity, rest, h⟩ ← severityClause tokens
    return ⟨{ action := written.action, count := written.count, period, severity, line }, rest, h⟩

/-- A limit after its keyword. Unless units are strict, an unknown one is noted and counts as a
second. -/
def limit (strict : Bool) (line : Nat) (tokens : List Token) :
    List Notice × Except Refusal (Parsed LimitRule tokens) :=
  match writtenLimit tokens with
  | .error e => ([], .error e)
  | .ok ⟨written, rest, h⟩ =>
    let withUnit (seconds : Nat) : Except Refusal (Parsed LimitRule tokens) := do
      let ⟨rule, rest, h'⟩ ← limitRule line seconds written rest
      return ⟨rule, rest, by omega⟩
    match unitSeconds? written.unit with
    | some seconds => ([], withUnit seconds)
    | none =>
      if strict then ([], refuse (.unknownUnit written.unit) written.unitTokens)
      else ([.unknownUnit written.unit written.unitLine], withUnit 1)

def accessKind? : TokenKind → Option AccessKind
  | .keyword .permit => some .permit
  | .keyword .deny => some .deny
  | .keyword .require => some .require
  | _ => none

def statement (options : ParseOptions) :
    (tokens : List Token) → List Notice × Except Refusal (Parsed Statement tokens)
  | [] => ([], refuse (.expected .statement) [])
  | t :: rest =>
    match accessKind? t.kind with
    | some kind => ([], do
      let ⟨rule, rest, h⟩ ← accessRule options.cap t.position.line rest
      return ⟨.access kind rule, rest, by simp only [List.length_cons]; omega⟩)
    | none =>
      if t.kind = .keyword .limit then
        let (notices, result) := limit options.strictTimeUnits t.position.line rest
        (notices, do
          let ⟨rule, rest, h⟩ ← result
          return ⟨.limit rule, rest, by simp only [List.length_cons]; omega⟩)
      else ([], refuse (.expected .statement) (t :: rest))

def statements (options : ParseOptions) (tokens : List Token) :
    List Notice × Except Refusal (List Statement) :=
  match tokens with
  | [] => ([], .ok [])
  | t :: rest =>
    if t.kind = .newline then statements options rest
    else
      match statement options (t :: rest) with
      | (notices, .error e) => (notices, .error e)
      | (notices, .ok ⟨s, [], _⟩) => (notices, .ok [s])
      | (notices, .ok ⟨s, t' :: rest', _h⟩) =>
        if t'.kind = .newline then
          let (more, result) := statements options rest'
          (notices ++ more, result.map (s :: ·))
        else (notices, refuse (.expected .lineEnd) (t' :: rest'))
termination_by tokens.length
decreasing_by
  · simp
  · simp only [List.length_cons] at _h ⊢; omega

end Grammar

end Delegation
