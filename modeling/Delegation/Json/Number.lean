import Delegation.Json.Basic
import Delegation.Number.Decimal

namespace Delegation.Json

attribute [local instance (2000)] instPowNat

/-- Appends digits to a number while it stays below two to the 64th; gives the number, how many digits
were taken, and how many were left. -/
def absorb (n taken : Nat) : List Char → Nat × Nat × Nat
  | [] => (n, taken, 0)
  | c :: cs =>
    let next := 10 * n + (c.toNat - '0'.toNat)
    if next < 2 ^ (64 : Nat) then absorb next (taken + 1) cs else (n, taken, cs.length + 1)

/-- The largest power of ten that scales a number in one step. -/
def maxStep : Nat := 308

def powerOfTen (k : Nat) : Binary64 := Binary64.ofNat (10 ^ k)

def scaled (x : Binary64) (exponent : Int) : Option Binary64 :=
  if exponent.natAbs ≤ maxStep then
    let y := if exponent < 0 then x.dividedBy (powerOfTen exponent.natAbs)
      else x.times (powerOfTen exponent.natAbs)
    if y.IsFinite then some y else none
  else if x.rank = 0 then some x
  else if exponent < 0 then scaled (x.dividedBy (powerOfTen maxStep)) (exponent + maxStep)
  else none
termination_by exponent.natAbs
decreasing_by simp only [maxStep] at *; omega

/-- The largest exponent that is told from larger ones. -/
def maxExponent : Int := 2 ^ (31 : Nat) - 1

def readNumber (negative : Bool) (whole : List Char) (fraction : Option (List Char))
    (exponent : Option Int) : Option Json :=
  let (head, _, dropped) := absorb 0 0 whole
  if dropped = 0 && fraction.isNone && exponent.isNone && !(negative && (head = 0 || head > 2 ^ (63 : Nat))) then
    some (.int (if negative then -(head : Int) else head))
  else
    let (head, taken, _) := absorb head 0 (fraction.getD [])
    let exponent := exponent.getD 0
    let scale :=
      if head = 0 then 0
      else max (-maxExponent) (min maxExponent ((dropped : Int) - taken + exponent))
    if head ≠ 0 && exponent > maxExponent then none
    else (scaled (Binary64.ofNat head) scale).map fun x => .float (if negative then x.neg else x)

/-- The text of a finite value, as in `1.0`, `1e+16` and `1.5e-7`. -/
def numberText (x : Binary64) : List Char :=
  let magnitude :=
    if x.rank = 0 then ['0', '.', '0']
    else
      let d := Decimal.shortest .even x.rank
      let digits := d.digits
      let point := d.point
      if -5 < point ∧ point ≤ 16 then
        let plain := Decimal.positional digits point
        if (digits.length : Int) ≤ point then plain ++ ['.', '0'] else plain
      else
        let exponent := point - 1
        let sign := if exponent < 0 then '-' else '+'
        let mantissa := match digits with
          | [] => []
          | [c] => [c]
          | c :: cs => c :: '.' :: cs
        mantissa ++ 'e' :: sign :: Nat.toDigits 10 exponent.natAbs
  if x.negative then '-' :: magnitude else magnitude

end Delegation.Json
