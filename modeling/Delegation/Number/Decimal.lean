import Delegation.Number.Binary64

namespace Delegation

attribute [local instance (2000)] instPowNat

def digitsValue (digits : List Char) : Nat :=
  digits.foldl (fun n c => 10 * n + (c.toNat - '0'.toNat)) 0

/-- A magnitude `coefficient * 10 ^ exponent`. -/
structure Decimal where
  coefficient : Nat
  exponent : Int
  deriving DecidableEq

namespace Decimal

def num (d : Decimal) : Nat := d.coefficient * 10 ^ d.exponent.toNat

def den (d : Decimal) : Nat := 10 ^ (-d.exponent).toNat

def rank (d : Decimal) : Nat := Binary64.nearestRank d.num d.den

/-- Where the exact tie between two equally short decimals goes. -/
inductive Tie
  | up
  | even
  deriving DecidableEq

/-- The decimal point of a positive finite rank: the least `p` with its magnitude below `10 ^ p`. -/
def pointOf (rank : Nat) : Int :=
  let shifted := Binary64.units rank * 10 ^ (324 : Nat) / Binary64.unitsPerOne
  (Nat.toDigits 10 shifted).length - 324

/-- Of two neighbours, the one that reads back as a rank. -/
def readingBack? (rank : Nat) (upper : Bool) (below above : Decimal) : Option Decimal :=
  if below.rank = rank then
    if above.rank = rank then some (if upper then above else below) else some below
  else if above.rank = rank then some above
  else none

def withDigits? (tie : Tie) (rank count : Nat) : Option Decimal :=
  let exponent := pointOf rank - count
  let num := Binary64.units rank * 10 ^ (-exponent).toNat
  let den := Binary64.unitsPerOne * 10 ^ exponent.toNat
  let below : Decimal := ⟨num / den, exponent⟩
  let above : Decimal := ⟨num / den + 1, exponent⟩
  let twice := 2 * (num % den)
  let upper : Bool := twice > den || (twice == den && (tie = .up || below.coefficient % 2 == 1))
  readingBack? rank upper below above

def exact (rank : Nat) : Decimal :=
  ⟨Binary64.units rank * 5 ^ Binary64.leastPlaces, -Binary64.leastPlaces⟩

/-- A decimal with the fewest digits that reads back as the rank; seventeen digits always suffice. -/
def shortest (tie : Tie) (rank : Nat) : Decimal :=
  ((List.range 17).findSome? fun i => withDigits? tie rank (i + 1)).getD (exact rank)

def digits (d : Decimal) : List Char :=
  ((Nat.toDigits 10 d.coefficient).reverse.dropWhile (· == '0')).reverse

def point (d : Decimal) : Int := (Nat.toDigits 10 d.coefficient).length + d.exponent

/-- Digits with the decimal point set, zeros filled in, and no point in a whole number. -/
def positional (digits : List Char) (point : Int) : List Char :=
  if point ≤ 0 then '0' :: '.' :: (List.replicate (-point).toNat '0' ++ digits)
  else if digits.length ≤ point.toNat then
    digits ++ List.replicate (point.toNat - digits.length) '0'
  else digits.take point.toNat ++ '.' :: digits.drop point.toNat

end Decimal

namespace Binary64

def ofLiteral (negative : Bool) (whole fraction : List Char) : Binary64 :=
  ofRatio negative (digitsValue (whole ++ fraction)) (10 ^ fraction.length)

/-- Positional text with the fewest digits: no exponent, and no point in a whole number. -/
def text (x : Binary64) : List Char :=
  let magnitude :=
    if x.rank = 0 then ['0']
    else if x.IsFinite then
      let d := Decimal.shortest .up x.rank
      Decimal.positional d.digits d.point
    else "inf".toList
  if x.negative then '-' :: magnitude else magnitude

end Binary64

end Delegation
