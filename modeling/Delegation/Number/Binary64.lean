namespace Delegation

-- the core library's powers, also for a reader who imports those of monoids
attribute [local instance (2000)] instPowNat

namespace Binary64

/-- The rank of infinity; every smaller rank is a finite magnitude. -/
def infinityRank : Nat := 2047 * 2 ^ (52 : Nat)

/-- The binary places after the point of the least positive magnitude. -/
def leastPlaces : Nat := 1074

def unitsPerOne : Nat := 2 ^ leastPlaces

def units (rank : Nat) : Nat :=
  let binade := rank / 2 ^ (52 : Nat)
  let offset := rank % 2 ^ (52 : Nat)
  if binade = 0 then offset else (2 ^ (52 : Nat) + offset) * 2 ^ (binade - 1)

def nearestQuotient (num den : Nat) : Nat :=
  let quotient := num / den
  let twice := 2 * (num % den)
  if twice < den ∨ (twice = den ∧ quotient % 2 = 0) then quotient else quotient + 1

/-- How many binary places beyond the 53 that are kept a number of units has. -/
def excessPlaces (u : Nat) : Nat := u.log2 - 52

/-- The rank nearest to a quotient, the even one of two, and infinity beyond the largest. -/
def nearestRank (num den : Nat) : Nat :=
  let scaled := num * unitsPerOne
  let excess := excessPlaces (scaled / den)
  min infinityRank (excess * 2 ^ (52 : Nat) + nearestQuotient scaled (den * 2 ^ excess))

theorem nearestRank_le (num den : Nat) : nearestRank num den ≤ infinityRank :=
  Nat.min_le_left _ _

end Binary64

/-- A binary64 value other than NaN: its sign and the rank of its magnitude. -/
structure Binary64 where
  negative : Bool
  rank : Nat
  rank_le : rank ≤ Binary64.infinityRank := by decide
  deriving DecidableEq

namespace Binary64

def ofRatio (negative : Bool) (num den : Nat) : Binary64 :=
  ⟨negative, nearestRank num den, nearestRank_le num den⟩

def ofNat (n : Nat) : Binary64 := ofRatio false n 1

def ofInt (n : Int) : Binary64 := ofRatio (decide (n < 0)) n.natAbs 1

def IsFinite (x : Binary64) : Prop := x.rank < infinityRank

instance (x : Binary64) : Decidable x.IsFinite := inferInstanceAs (Decidable (_ < _))

/-- Orders values; the two zeros share one place. -/
def key (x : Binary64) : Int := if x.negative then -(x.rank : Int) else x.rank

def same (x y : Binary64) : Bool := x.key == y.key

def less (x y : Binary64) : Bool := decide (x.key < y.key)

def atMost (x y : Binary64) : Bool := decide (x.key ≤ y.key)

def toNat? (x : Binary64) : Option Nat :=
  if x.IsFinite ∧ 0 ≤ x.key ∧ units x.rank % unitsPerOne = 0 then some (units x.rank / unitsPerOne)
  else none

def neg (x : Binary64) : Binary64 := { x with negative := !x.negative }

def times (x y : Binary64) : Binary64 :=
  ofRatio (x.negative != y.negative) (units x.rank * units y.rank) (unitsPerOne * unitsPerOne)

def dividedBy (x y : Binary64) : Binary64 :=
  ofRatio (x.negative != y.negative) (units x.rank) (units y.rank)

end Binary64

end Delegation
