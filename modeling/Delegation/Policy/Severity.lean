namespace Delegation

inductive Severity
  | critical
  | high
  | medium
  | low
  deriving DecidableEq

namespace Severity

def standard : Severity := high

def all : List Severity := [critical, high, medium, low]

def text : Severity → String
  | critical => "critical"
  | high => "high"
  | medium => "medium"
  | low => "low"

def ofText? (word : String) : Option Severity := all.find? (·.text == word)

def unknown (word : String) : String :=
  "unknown severity '" ++ word ++ "' (expected critical, high, medium or low)"

end Severity

end Delegation
