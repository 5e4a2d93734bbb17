import Delegation.Source.Keyword
import Delegation.Text.Split
import Delegation.Text.Word

namespace Delegation

inductive ActionFault
  | empty
  | emptySegment
  | partialWildcard
  | badSegment (segment : List Char)
  | startsWithKeyword (segment : List Char)
  deriving DecidableEq

def ActionFault.message (pattern : String) : ActionFault → String
  | empty => "empty action pattern"
  | emptySegment => "empty segment in action pattern '" ++ pattern ++ "'"
  | partialWildcard => "wildcard must be a whole segment in action pattern '" ++ pattern ++ "'"
  | badSegment segment =>
    "invalid segment '" ++ String.ofList segment ++ "' in action pattern '" ++ pattern ++ "'"
  | startsWithKeyword segment =>
    "action pattern '" ++ pattern ++ "' starts with the keyword '" ++ String.ofList segment ++ "'"

namespace ActionPattern

/-- Whether a word may start with a character; only later segments may start with a digit. -/
def isLead (first : Bool) (c : Char) : Bool := isWordStart c || (!first && c.isDigit)

def segmentFault? (first : Bool) (segment : List Char) : Option ActionFault :=
  match segment with
  | [] => some .emptySegment
  | lead :: _ =>
    if segment = ['*'] ∨ segment = ['*', '*'] then none
    else if '*' ∈ segment then some .partialWildcard
    else if !segment.all isWordPart || !isLead first lead then some (.badSegment segment)
    else if first && (Keyword.ofText? (String.ofList segment)).isSome then
      some (.startsWithKeyword segment)
    else none

def fault? (pattern : String) : Option ActionFault :=
  if pattern.toList.isEmpty then some .empty
  else
    match splitOn '.' pattern.toList with
    | [] => none
    | first :: rest => (segmentFault? true first).or (rest.findSome? (segmentFault? false))

end ActionPattern

end Delegation
