import Delegation.Source.Token
import Delegation.Text.Word

namespace Delegation

inductive LexicalFault
  | unexpected (c : Char)
  | loneBang
  | unterminated
  | unknownEscape (c : Char)
  deriving DecidableEq

namespace LexicalFault

/-- A character as messages show it: as itself if it is printable and needs no escape. -/
def shown (c : Char) : String :=
  if c = '\t' then "\\t"
  else if c = '\r' then "\\r"
  else if c = '\n' then "\\n"
  else if c = '\'' ∨ c = '"' ∨ c = '\\' then String.ofList ['\\', c]
  else if 0x20 ≤ c.toNat ∧ c.toNat < 0x7f then String.singleton c
  else "\\u\x7b" ++ String.ofList (Nat.toDigits 16 c.toNat) ++ "\x7d"

def message : LexicalFault → String
  | unexpected c => "unexpected character '" ++ shown c ++ "'"
  | loneBang => "expected '=' after '!'"
  | unterminated => "unterminated string"
  | unknownEscape c => "invalid escape '\\" ++ String.singleton c ++ "'"

end LexicalFault

namespace Lexer

def isBlank (c : Char) : Bool := c = ' ' || c = '\t' || c = '\r'

/-- The blanks and comments at the front of a text. A comment ends before its newline. -/
def gap : List Char → List Char
  | [] => []
  | c :: cs =>
    if isBlank c then c :: gap cs
    else if c = '#' then c :: cs.takeWhile (· ≠ '\n')
    else []

/-- A fault and how many characters after the start of its lexeme it stands. -/
structure Misread where
  fault : LexicalFault
  offset : Nat

def unescape? : Char → Option Char
  | '\\' => some '\\'
  | '\'' => some '\''
  | '"' => some '"'
  | 'n' => some '\n'
  | 't' => some '\t'
  | 'r' => some '\r'
  | _ => none

/-- The rest of a quoted text from `offset` on: what it denotes, and the offset of its closing quote. -/
def quoted (quote : Char) (offset : Nat) : List Char → Except Misread (List Char × Nat)
  | [] => .error ⟨.unterminated, 0⟩
  | c :: cs =>
    if c = '\n' then .error ⟨.unterminated, 0⟩
    else if c = quote then .ok ([], offset)
    else if c = '\\' then
      match cs with
      | [] => .error ⟨.unterminated, 0⟩
      | e :: cs =>
        match unescape? e with
        | some d => (quoted quote (offset + 2) cs).map fun (ds, close) => (d :: ds, close)
        | none =>
          .error (if e = '\n' then ⟨.unterminated, 0⟩ else ⟨.unknownEscape e, offset⟩)
    else (quoted quote (offset + 1) cs).map fun (ds, close) => (c :: ds, close)

/-- The digits after a decimal point, none if the point is not part of the number. -/
def fraction : List Char → List Char
  | '.' :: cs => cs.takeWhile Char.isDigit
  | _ => []

def number (negative : Bool) (cs : List Char) : TokenKind × Nat :=
  let whole := cs.takeWhile Char.isDigit
  let fraction := fraction (cs.drop whole.length)
  let length := if fraction.isEmpty then whole.length else whole.length + 1 + fraction.length
  (.number (Binary64.ofLiteral negative whole fraction), length)

def wordKind (cs : List Char) : TokenKind :=
  match Keyword.ofText? (String.ofList cs) with
  | some word => .keyword word
  | none => .word (String.ofList cs)

/-- The token that starts with `c`, and how many of the characters after it belong to it. Digits right
after a dot form a word, as in a path. -/
def scan (afterDot : Bool) (c : Char) (cs : List Char) : Except Misread (TokenKind × Nat) :=
  let followedBy (d : Char) : Bool := cs.head? == some d
  match c with
  | '\n' => .ok (.newline, 0)
  | '*' => .ok (if followedBy '*' then (.anyDepth, 1) else (.any, 0))
  | '.' => .ok (.dot, 0)
  | ',' => .ok (.comma, 0)
  | '[' => .ok (.openBracket, 0)
  | ']' => .ok (.closeBracket, 0)
  | '(' => .ok (.openParen, 0)
  | ')' => .ok (.closeParen, 0)
  | '=' => .ok (.operator .equal, 0)
  | '!' => if followedBy '=' then .ok (.operator .notEqual, 1) else .error ⟨.loneBang, 0⟩
  | '<' => .ok (if followedBy '=' then (.operator .atMost, 1) else (.operator .less, 0))
  | '>' => .ok (if followedBy '=' then (.operator .atLeast, 1) else (.operator .greater, 0))
  | _ =>
    if c = '\'' ∨ c = '"' then
      (quoted c 1 cs).map fun (value, close) => (.text (String.ofList value), close)
    else if c.isDigit && !afterDot then
      let (kind, length) := number false (c :: cs)
      .ok (kind, length - 1)
    else if c = '-' && (cs.head?.any Char.isDigit) then .ok (number true cs)
    else if c.isDigit || isWordStart c then
      let more := cs.takeWhile isWordPart
      .ok (wordKind (c :: more), more.length)
    else .error ⟨.unexpected c, 0⟩

structure Fault where
  cause : LexicalFault
  position : Position
  deriving DecidableEq

def tokens (afterDot : Bool) (start : Position) (text : List Char) : Except Fault TokenStream :=
  let blank := gap text
  let here := start.after blank
  match _split : text.drop blank.length with
  | [] => .ok ⟨[], here⟩
  | c :: cs =>
    match scan (afterDot && blank.isEmpty) c cs with
    | .error misread => .error ⟨misread.fault, here.after ((c :: cs).take misread.offset)⟩
    | .ok (kind, more) =>
      let lexeme := c :: cs.take more
      (tokens (kind = .dot) (here.after lexeme) (cs.drop more)).map fun stream =>
        { stream with tokens := ⟨kind, lexeme, here⟩ :: stream.tokens }
termination_by text.length
decreasing_by
  have := congrArg List.length _split
  simp at this ⊢
  omega

end Lexer

def tokenize (source : String) : Except Lexer.Fault TokenStream :=
  Lexer.tokens false Position.start source.toList

end Delegation
