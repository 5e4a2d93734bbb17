namespace Delegation

structure Identifier where
  digits : List (Fin 16)
  length_digits : digits.length = 32
  deriving DecidableEq

namespace Identifier

def hexDigit? (c : Char) : Option (Fin 16) :=
  if c.isDigit then some (Fin.ofNat 16 (c.toNat - '0'.toNat))
  else if 'a' ≤ c ∧ c ≤ 'f' then some (Fin.ofNat 16 (c.toNat - 'a'.toNat + 10))
  else if 'A' ≤ c ∧ c ≤ 'F' then some (Fin.ofNat 16 (c.toNat - 'A'.toNat + 10))
  else none

def ofDigits? (text : List Char) : Option Identifier :=
  match text.mapM hexDigit? with
  | some digits => if h : digits.length = 32 then some ⟨digits, h⟩ else none
  | none => none

def ofGroups? (text : List Char) : Option Identifier :=
  if text.length = 36 ∧ text[8]? = some '-' ∧ text[13]? = some '-' ∧ text[18]? = some '-' ∧
      text[23]? = some '-' then
    ofDigits? (text.filter (· ≠ '-'))
  else none

/-- Reads the groups, alone, in braces or as a name, and the digits without hyphens. -/
def ofText? (text : List Char) : Option Identifier :=
  let name := "urn:uuid:".toList
  if text.length = 32 then ofDigits? text
  else if text.length = 38 ∧ text.head? = some '\x7b' ∧ text.getLast? = some '\x7d' then
    ofGroups? text.tail.dropLast
  else if text.length = 45 ∧ name.isPrefixOf text then ofGroups? (text.drop name.length)
  else ofGroups? text

def text (id : Identifier) : List Char :=
  let cs := id.digits.map fun d => Nat.digitChar d.val
  cs.take 8 ++ '-' :: ((cs.drop 8).take 4 ++ '-' :: ((cs.drop 12).take 4 ++ '-' ::
    ((cs.drop 16).take 4 ++ '-' :: cs.drop 20)))

end Identifier

end Delegation
