import Delegation.Json.Number

namespace Delegation.Json

def isBlank (c : Char) : Bool := c = ' ' || c = '\t' || c = '\n' || c = '\r'

def skipBlanks (text : List Char) : List Char := text.dropWhile isBlank

def hexDigit? (c : Char) : Option Nat :=
  if c.isDigit then some (c.toNat - '0'.toNat)
  else if 'a' ≤ c ∧ c ≤ 'f' then some (c.toNat - 'a'.toNat + 10)
  else if 'A' ≤ c ∧ c ≤ 'F' then some (c.toNat - 'A'.toNat + 10)
  else none

def hexQuad? (a b c d : Char) : Option Nat := do
  return 4096 * (← hexDigit? a) + 256 * (← hexDigit? b) + 16 * (← hexDigit? c) + (← hexDigit? d)

def simpleEscape? : Char → Option Char
  | '"' => some '"'
  | '\\' => some '\\'
  | '/' => some '/'
  | 'b' => some '\x08'
  | 'f' => some '\x0c'
  | 'n' => some '\n'
  | 'r' => some '\r'
  | 't' => some '\t'
  | _ => none

/-- The rest of a quoted text: what it denotes and what follows its closing quote. Surrogates come in
pairs only. -/
def readText : List Char → Option (List Char × List Char)
  | [] => none
  | '"' :: cs => some ([], cs)
  | '\\' :: 'u' :: a :: b :: c :: d :: cs => do
    let unit ← hexQuad? a b c d
    if unit < 0xd800 ∨ 0xdfff < unit then
      let (text, rest) ← readText cs
      return (Char.ofNat unit :: text, rest)
    else if unit < 0xdc00 then
      match cs with
      | '\\' :: 'u' :: a :: b :: c :: d :: cs =>
        let low ← hexQuad? a b c d
        if 0xdc00 ≤ low ∧ low ≤ 0xdfff then
          let (text, rest) ← readText cs
          return (Char.ofNat (0x10000 + 0x400 * (unit - 0xd800) + (low - 0xdc00)) :: text, rest)
        else none
      | _ => none
    else none
  | '\\' :: e :: cs => do
    let c ← simpleEscape? e
    let (text, rest) ← readText cs
    return (c :: text, rest)
  | c :: cs =>
    if c.toNat < 0x20 then none
    else do
      let (text, rest) ← readText cs
      return (c :: text, rest)

def readExponent (text : List Char) : Option (Option Int × List Char) :=
  match text with
  | c :: cs =>
    if c = 'e' ∨ c = 'E' then
      let (negative, cs) := match cs with
        | '-' :: cs => (true, cs)
        | '+' :: cs => (false, cs)
        | cs => (false, cs)
      let digits := cs.takeWhile Char.isDigit
      let n : Int := digitsValue digits
      if digits.isEmpty then none
      else some (some (if negative then -n else n), cs.drop digits.length)
    else some (none, text)
  | [] => some (none, [])

def readFraction (text : List Char) : Option (Option (List Char) × List Char) :=
  match text with
  | '.' :: cs =>
    let digits := cs.takeWhile Char.isDigit
    if digits.isEmpty then none else some (some digits, cs.drop digits.length)
  | _ => some (none, text)

/-- A number and what follows it. A whole part of several digits does not start with zero. -/
def readNumberText (text : List Char) : Option (Json × List Char) := do
  let negative := text.head? = some '-'
  let text := if negative then text.tail else text
  let whole := text.takeWhile Char.isDigit
  if whole.isEmpty || (whole.head? = some '0' && whole.length > 1) then none
  else
    let (fraction, rest) ← readFraction (text.drop whole.length)
    let (exponent, rest) ← readExponent rest
    return (← readNumber negative whole fraction exponent, rest)

mutual

def readValue : (fuel : Nat) → List Char → Option (Json × List Char)
  | 0, _ => none
  | fuel + 1, text =>
    match skipBlanks text with
    | 'n' :: 'u' :: 'l' :: 'l' :: cs => some (null, cs)
    | 't' :: 'r' :: 'u' :: 'e' :: cs => some (bool true, cs)
    | 'f' :: 'a' :: 'l' :: 's' :: 'e' :: cs => some (bool false, cs)
    | '"' :: cs => do
      let (s, rest) ← readText cs
      return (string (String.ofList s), rest)
    | '[' :: cs =>
      match skipBlanks cs with
      | ']' :: rest => some (array [], rest)
      | _ => do
        let (items, rest) ← readItems fuel cs
        return (array items, rest)
    | '\x7b' :: cs =>
      match skipBlanks cs with
      | '\x7d' :: rest => some (object [], rest)
      | _ => do
        let (fields, rest) ← readFields fuel cs []
        return (object fields, rest)
    | cs => readNumberText cs

def readItems : (fuel : Nat) → List Char → Option (List Json × List Char)
  | 0, _ => none
  | fuel + 1, text => do
    let (item, rest) ← readValue fuel text
    match skipBlanks rest with
    | ',' :: rest =>
      let (items, rest) ← readItems fuel rest
      return (item :: items, rest)
    | ']' :: rest => return ([item], rest)
    | _ => none

def readFields : (fuel : Nat) → List Char → List (String × Json) →
    Option (List (String × Json) × List Char)
  | 0, _, _ => none
  | fuel + 1, text, before =>
    match skipBlanks text with
    | '"' :: cs => do
      let (key, rest) ← readText cs
      match skipBlanks rest with
      | ':' :: rest =>
        let (value, rest) ← readValue fuel rest
        let fields := withField (String.ofList key) value before
        match skipBlanks rest with
        | ',' :: rest => readFields fuel rest fields
        | '\x7d' :: rest => return (fields, rest)
        | _ => none
      | _ => none
    | _ => none

end

/-- The value that a text spells. Every level of the reading follows a character of the text, or two
levels share one, so the fuel suffices. -/
def ofText? (text : List Char) : Option Json :=
  match readValue (2 * text.length + 2) text with
  | some (value, rest) => if (skipBlanks rest).isEmpty then some value else none
  | none => none

end Delegation.Json
