import Delegation.Text.CharSet

namespace Delegation

attribute [local instance (2000)] instPowNat

inductive Anchor
  | textStart
  | textEnd
  | lineStart
  | lineEnd
  /-- Lines may end in a carriage return, a newline, or the two in this order. -/
  | anyLineStart
  | anyLineEnd
  | wordBoundary (word : CharSet)
  | noWordBoundary (word : CharSet)
  | wordStart (word : CharSet)
  | wordEnd (word : CharSet)
  | noWordBefore (word : CharSet)
  | noWordAfter (word : CharSet)

inductive Regex
  | empty
  | one (set : CharSet)
  | anchor (a : Anchor)
  | seq (r s : Regex)
  | alt (r s : Regex)
  | atLeast (count : Nat) (r : Regex)
  | between (least most : Nat) (r : Regex)

def Anchor.holds (a : Anchor) (before after : Option Char) : Bool :=
  match a with
  | textStart => before.isNone
  | textEnd => after.isNone
  | lineStart => before.all (· == '\n')
  | lineEnd => after.all (· == '\n')
  | anyLineStart => before.all fun c => c == '\n' || (c == '\r' && after != some '\n')
  | anyLineEnd => after.all fun c => c == '\r' || (c == '\n' && before != some '\r')
  | wordBoundary word => before.any word.mem != after.any word.mem
  | noWordBoundary word => before.any word.mem == after.any word.mem
  | wordStart word => !before.any word.mem && after.any word.mem
  | wordEnd word => before.any word.mem && !after.any word.mem
  | noWordBefore word => !before.any word.mem
  | noWordAfter word => !after.any word.mem

namespace Regex

def placesOf (set : CharSet) : List Char → Nat
  | [] => 0
  | c :: cs => 2 * placesOf set cs + (set.mem c).toNat

def placesAt (a : Anchor) (before : Option Char) : List Char → Nat
  | [] => (a.holds before none).toNat
  | c :: cs => 2 * placesAt a (some c) cs + (a.holds before (some c)).toNat

def repeated (f : Nat → Nat) : Nat → Nat → Nat
  | 0, places => places
  | count + 1, places => if f places = places then places else repeated f count (f places)

/-- An expression laid over a text: its parts say at which places they apply. -/
inductive Layout
  | empty
  | step (places : Nat)
  | stay (places : Nat)
  | seq (r s : Layout)
  | alt (r s : Layout)
  | atLeast (count : Nat) (r : Layout)
  | between (least most : Nat) (r : Layout)

def layOver (text : List Char) : Regex → Layout
  | empty => .empty
  | one set => .step (placesOf set text)
  | anchor a => .stay (placesAt a none text)
  | seq r s => .seq (layOver text r) (layOver text s)
  | alt r s => .alt (layOver text r) (layOver text s)
  | atLeast count r => .atLeast count (layOver text r)
  | between least most r => .between least most (layOver text r)

/-- The places where an expression may end, given those where it may start, in a text with `size`
characters. No more than `size + 1` repetitions are tried, since a further one reaches nothing new. -/
def Layout.ends (size : Nat) : Layout → Nat → Nat
  | empty, places => places
  | step here, places => 2 * (places &&& here)
  | stay here, places => places &&& here
  | seq r s, places => s.ends size (r.ends size places)
  | alt r s, places => r.ends size places ||| s.ends size places
  | atLeast count r, places =>
    repeated (fun p => p ||| r.ends size p) (size + 1) (repeated (r.ends size) count places)
  | between least most r, places =>
    repeated (fun p => p ||| r.ends size p) (most - least) (repeated (r.ends size) least places)

def occursIn (r : Regex) (text : List Char) : Bool :=
  (r.layOver text).ends text.length (2 ^ (text.length + 1) - 1) != 0

end Regex

end Delegation
