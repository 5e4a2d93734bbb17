namespace Delegation

inductive Operator
  | equal
  | notEqual
  | less
  | greater
  | atMost
  | atLeast
  | oneOf
  | noneOf
  | contains
  | lacks
  | startsWith
  | endsWith
  | matchesRegex
  deriving DecidableEq

namespace Operator

def all : List Operator :=
  [equal, notEqual, less, greater, atMost, atLeast, oneOf, noneOf, contains, lacks, startsWith,
    endsWith, matchesRegex]

theorem mem_all (op : Operator) : op ∈ all := by cases op <;> decide

def text : Operator → String
  | equal => "="
  | notEqual => "!="
  | less => "<"
  | greater => ">"
  | atMost => "<="
  | atLeast => ">="
  | oneOf => "in"
  | noneOf => "not_in"
  | contains => "contains"
  | lacks => "not_contains"
  | startsWith => "starts_with"
  | endsWith => "ends_with"
  | matchesRegex => "matches"

def ofText? (word : String) : Option Operator := all.find? (·.text == word)

def expectsArray : Operator → Bool
  | oneOf | noneOf => true
  | _ => false

end Operator

end Delegation
