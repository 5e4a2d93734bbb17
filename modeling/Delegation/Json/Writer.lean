import Delegation.Json.Number
import Delegation.Text.Split

namespace Delegation.Json

def hexPair (n : Nat) : List Char := [Nat.digitChar (n / 16), Nat.digitChar (n % 16)]

def escapeChar (c : Char) : List Char :=
  if c = '"' then ['\\', '"']
  else if c = '\\' then ['\\', '\\']
  else if c = '\x08' then ['\\', 'b']
  else if c = '\x0c' then ['\\', 'f']
  else if c = '\n' then ['\\', 'n']
  else if c = '\r' then ['\\', 'r']
  else if c = '\t' then ['\\', 't']
  else if c.toNat < 0x20 then '\\' :: 'u' :: '0' :: '0' :: hexPair c.toNat
  else [c]

def quoteText (text : List Char) : List Char := '"' :: (text.flatMap escapeChar ++ ['"'])

/-- The text of a number; an infinite one has none and is written as `null`. -/
def floatText (x : Binary64) : List Char := if x.IsFinite then numberText x else "null".toList

mutual

def write : Json → List Char
  | null => "null".toList
  | bool true => "true".toList
  | bool false => "false".toList
  | int n => (if n < 0 then ['-'] else []) ++ Nat.toDigits 10 n.natAbs
  | float x => floatText x
  | string s => quoteText s.toList
  | array items => '[' :: (joinWith [','] (writeItems items) ++ [']'])
  | object fields => '\x7b' :: (joinWith [','] (writeFields fields) ++ ['\x7d'])

def writeItems : List Json → List (List Char)
  | [] => []
  | item :: items => write item :: writeItems items

def writeFields : List (String × Json) → List (List Char)
  | [] => []
  | (key, value) :: fields => (quoteText key.toList ++ ':' :: write value) :: writeFields fields

end

end Delegation.Json
