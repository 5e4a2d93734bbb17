import Delegation.Source.Grammar

namespace Delegation

def kinds (tokens : List Token) : List TokenKind := tokens.map (·.kind)

namespace Grammar

variable {α : Type} {ks : List TokenKind}

def SpellsOne (make : TokenKind → Option α) (ks : List TokenKind) (a : α) : Prop :=
  ∃ k, ks = [k] ∧ make k = some a

inductive Separated (item : List TokenKind → α → Prop) (separator : TokenKind) :
    List TokenKind → List α → Prop
  | one {ks a} : item ks a → Separated item separator ks [a]
  | more {ks ks' a as} : item ks a → Separated item separator ks' as →
      Separated item separator (ks ++ separator :: ks') (a :: as)

inductive Dotted (segment? : TokenKind → Option (List Char)) :
    List TokenKind → List (List Char) → Prop
  | nil : Dotted segment? [] []
  | cons {k ks s ss} : segment? k = some s → Dotted segment? ks ss →
      Dotted segment? (.dot :: k :: ks) (s :: ss)

def SpellsPath (first? segment? : TokenKind → Option (List Char)) (ks : List TokenKind)
    (path : String) : Prop :=
  ∃ k ks' first more, ks = k :: ks' ∧ first? k = some first ∧ Dotted segment? ks' more ∧
    path = String.ofList (joinWith ['.'] (first :: more))

def SpellsAction : List TokenKind → String → Prop :=
  SpellsPath (fun k => (wordText? k).or (wildcardText? k)) (fun k => (dottedText? k).or (wildcardText? k))

def SpellsField : List TokenKind → String → Prop := SpellsPath wordText? dottedText?

def SpellsResource (ks : List TokenKind) (resource : String) : Prop :=
  SpellsOne resourceText? ks resource ∧ resource.isEmpty = false

def SpellsSeverity (ks : List TokenKind) (severity : Severity) : Prop :=
  ks = [] ∧ severity = .standard ∨
    ∃ level, ks = [.keyword .severity, .word level] ∧ Severity.ofText? level = some severity

def scalar? : TokenKind → Option Value
  | .text s => some (.text s)
  | .number x => some (.number x)
  | .word "true" => some (.bool true)
  | .word "false" => some (.bool false)
  | _ => none

def SpellsArray (item : List TokenKind → Value → Prop) (ks : List TokenKind) (v : Value) : Prop :=
  ∃ inner items, ks = .openBracket :: (inner ++ [.closeBracket]) ∧ v = .array items ∧
    Separated item .comma inner items

def SpellsValue : (levels : Nat) → List TokenKind → Value → Prop
  | 0 => SpellsOne scalar?
  | levels + 1 => fun ks v => SpellsOne scalar? ks v ∨ SpellsArray (SpellsValue levels) ks v

variable [Matchers]

def SpellsComparison (levels : Nat) (ks : List TokenKind) (c : Condition) : Prop :=
  ∃ fs k vs field op v, ks = fs ++ k :: vs ∧ c = .comparison field op v ∧ SpellsField fs field ∧
    operator? k = some op ∧ SpellsValue levels vs v ∧ operandFault? op v = none

def SpellsJoined (operand : List TokenKind → Condition → Prop) (separator : Keyword)
    (join : List Condition → Condition) (ks : List TokenKind) (c : Condition) : Prop :=
  ∃ cs, Separated operand (.keyword separator) ks cs ∧ c = joined join cs

def SpellsConjunction (operand : List TokenKind → Condition → Prop) :
    List TokenKind → Condition → Prop :=
  SpellsJoined operand .and .and

def SpellsDisjunction (operand : List TokenKind → Condition → Prop) :
    List TokenKind → Condition → Prop :=
  SpellsJoined (SpellsConjunction operand) .or .or

def SpellsNot (operand : List TokenKind → Condition → Prop) (ks : List TokenKind) (c : Condition) :
    Prop :=
  ∃ inner c', ks = .keyword .not :: inner ∧ c = .not c' ∧ operand inner c'

def SpellsParens (operand : List TokenKind → Condition → Prop) (ks : List TokenKind)
    (c : Condition) : Prop :=
  ∃ inner, ks = .openParen :: (inner ++ [.closeParen]) ∧ SpellsDisjunction operand inner c

def SpellsOperand : (levels : Nat) → List TokenKind → Condition → Prop
  | 0 => SpellsComparison 0
  | levels + 1 => fun ks c => SpellsComparison (levels + 1) ks c ∨
      SpellsNot (SpellsOperand levels) ks c ∨ SpellsParens (SpellsOperand levels) ks c

def SpellsCondition : (cap : Nat) → List TokenKind → Condition → Prop
  | 0 => fun _ _ => False
  | levels + 1 => SpellsDisjunction (SpellsOperand levels)

def SpellsWhen (cap : Nat) (ks : List TokenKind) (condition : Option Condition) : Prop :=
  ks = [] ∧ condition = none ∨
    ∃ inner c, ks = .keyword .when :: inner ∧ condition = some c ∧ SpellsCondition cap inner c

def SpellsAccess (cap line : Nat) (ks : List TokenKind) (r : AccessRule) : Prop :=
  ∃ as rs ws ss, ks = as ++ .keyword .on :: (rs ++ (ws ++ ss)) ∧ SpellsAction as r.action ∧
    SpellsResource rs r.resource ∧ SpellsWhen cap ws r.condition ∧ SpellsSeverity ss r.severity ∧
    r.line = line

/-- The seconds that a unit stands for; unless units are strict, an unknown one stands for one. -/
def UnitStandsFor (strict : Bool) (unit : String) (seconds : Nat) : Prop :=
  unitSeconds? unit = some seconds ∨ unitSeconds? unit = none ∧ strict = false ∧ seconds = 1

def SpellsLimit (strict : Bool) (line : Nat) (ks : List TokenKind) (r : LimitRule) : Prop :=
  ∃ as x y unit ss amount seconds,
    ks = as ++ .number x :: .keyword .per :: .number y :: .word unit :: ss ∧
    SpellsAction as r.action ∧ quantity? x = some r.count ∧ quantity? y = some amount ∧
    UnitStandsFor strict unit seconds ∧ r.period = amount * seconds ∧ r.period ≤ maxCount ∧
    r.period ≠ 0 ∧ SpellsSeverity ss r.severity ∧ r.line = line

def SpellsStatement (options : ParseOptions) (line : Nat) (ks : List TokenKind) : Statement → Prop
  | .access kind r =>
    ∃ k body, ks = k :: body ∧ accessKind? k = some kind ∧ SpellsAccess options.cap line body r
  | .limit r =>
    ∃ body, ks = .keyword .limit :: body ∧ SpellsLimit options.strictTimeUnits line body r

/-- A statement stands on the line of its first token. -/
def SpellsLine (options : ParseOptions) (tokens : List Token) (s : Statement) : Prop :=
  ∃ t rest, tokens = t :: rest ∧ SpellsStatement options t.position.line (kinds tokens) s

inductive SpellsDocument (options : ParseOptions) : List Token → List Statement → Prop
  | nil : SpellsDocument options [] []
  | newline {t tokens statements} : t.kind = .newline → SpellsDocument options tokens statements →
      SpellsDocument options (t :: tokens) statements
  | last {tokens s} : SpellsLine options tokens s → SpellsDocument options tokens [s]
  | line {front t rest s statements} : SpellsLine options front s → t.kind = .newline →
      SpellsDocument options rest statements →
      SpellsDocument options (front ++ t :: rest) (s :: statements)

end Grammar

end Delegation
