import Delegation.Text.Unicode.CaseFold
import Delegation.Text.Unicode.Category

namespace Delegation

inductive CharSet
  | range (first last : Char)
  /-- The characters whose category code starts with the given letters. -/
  | category (letters : List Char)
  | none
  | union (s t : CharSet)
  | inter (s t : CharSet)
  | complement (s : CharSet)
  /-- The characters with a case variant in the set. -/
  | folded (s : CharSet)

namespace CharSet

def mem : CharSet → Char → Bool
  | range first last, c => first ≤ c && c ≤ last
  | category letters, c => letters.isPrefixOf (Unicode.category c)
  | none, _ => false
  | union s t, c => s.mem c || t.mem c
  | inter s t, c => s.mem c && t.mem c
  | complement s, c => !s.mem c
  | folded s, c => (Unicode.variants c).any s.mem

def single (c : Char) : CharSet := range c c

/-- The characters between two code points, both included. -/
def between (first last : Nat) : CharSet := range (Char.ofNat first) (Char.ofNat last)

def ofChars (cs : List Char) : CharSet := cs.foldr (fun c s => union (single c) s) none

def unions (sets : List CharSet) : CharSet := sets.foldr union none

def diff (s t : CharSet) : CharSet := inter s (complement t)

def symmDiff (s t : CharSet) : CharSet := union (diff s t) (diff t s)

def full : CharSet := complement none

def digits : CharSet := range '0' '9'

def lowers : CharSet := range 'a' 'z'

def uppers : CharSet := range 'A' 'Z'

def letters : CharSet := union lowers uppers

def whiteSpace : CharSet :=
  unions [range '\t' '\r', category ['Z'], between 0x85 0x85]

def decimal : CharSet := category ['N', 'd']

/-- Unicode's alphabetic characters, marks left out. -/
def alphabetic : CharSet :=
  unions [letters, category ['L'], category ['N', 'l'], between 0x24b6 0x24e9,
    between 0x1f130 0x1f149, between 0x1f150 0x1f169, between 0x1f170 0x1f189]

/-- Unicode's word characters: letters, marks, decimal digits, connectors and the two joiners. -/
def word : CharSet :=
  unions [letters, digits, single '_', alphabetic, category ['M'], decimal, category ['P', 'c'],
    between 0x200c 0x200d]

end CharSet

end Delegation
