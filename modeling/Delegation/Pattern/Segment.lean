import Delegation.Pattern.Alignment
import Delegation.Text.Matchers
import Delegation.Text.Split

namespace Delegation

inductive PatternKind
  | action
  | resource
  deriving DecidableEq

def PatternKind.segments (kind : PatternKind) (text : List Char) : List (List Char) :=
  match kind with
  | .action => if text.isEmpty then [] else splitOn '.' text
  | .resource =>
    let inner := trimBoth '/' text
    if inner.isEmpty then [] else splitOn '/' inner

inductive Segment
  | literal (text : List Char)
  /-- Text in which each star stands for any run of characters. -/
  | glob (text : List Char)
  | any
  | anyDepth
  deriving DecidableEq

namespace Segment

variable [Matchers]

def ofText (text : List Char) : Segment :=
  if text = ['*', '*'] then anyDepth
  else if text = ['*'] then any
  else if '*' ∈ text then glob text
  else literal text

/-- The glob in which the stars of a text have a meaning and nothing else has. -/
def starsOnly (text : List Char) : List Char := joinWith ['*'] ((splitOn '*' text).map Matchers.escape)

/-- A segment with stars fits its own text and what it matches as a glob. -/
def globFits (pattern text : List Char) : Bool :=
  pattern == text || (Matchers.glob? (starsOnly pattern)).any (· text)

def isAnyDepth : Segment → Bool
  | anyDepth => true
  | _ => false

def isWildcard : Segment → Bool
  | literal _ => false
  | _ => true

def rank : Segment → Nat
  | literal _ => 3
  | glob _ => 2
  | any => 1
  | anyDepth => 0

def fits : Segment → List Char → Bool
  | literal s, text => s == text
  | glob g, text => globFits g text
  | any, _ => true
  | anyDepth, _ => true

/-- Whether two segments may describe a common one. Two globs are taken to. -/
def overlaps : Segment → Segment → Bool
  | any, _ | anyDepth, _ | _, any | _, anyDepth => true
  | literal s, literal t => s == t
  | glob g, literal s | literal s, glob g => globFits g s
  | glob _, glob _ => true

/-- Whether one segment is seen to describe all that another does. -/
def covers : Segment → Segment → Bool
  | any, anyDepth => false
  | any, _ => true
  | literal s, literal t => s == t
  | glob g, literal s => globFits g s
  | glob g, glob h => g == h
  | _, _ => false

end Segment

def PatternKind.pattern (kind : PatternKind) (text : String) : List Segment :=
  (kind.segments text.toList).map Segment.ofText

end Delegation
