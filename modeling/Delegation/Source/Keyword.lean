namespace Delegation

inductive Keyword
  | permit
  | deny
  | require
  | limit
  | on
  | when
  | per
  | and
  | or
  | not
  | severity
  deriving DecidableEq

namespace Keyword

def all : List Keyword :=
  [permit, deny, require, limit, on, when, per, and, or, not, severity]

theorem mem_all (k : Keyword) : k ∈ all := by cases k <;> decide

def text : Keyword → String
  | permit => "permit"
  | deny => "deny"
  | require => "require"
  | limit => "limit"
  | on => "on"
  | when => "when"
  | per => "per"
  | and => "and"
  | or => "or"
  | not => "not"
  | severity => "severity"

def ofText? (word : String) : Option Keyword := all.find? (·.text == word)

end Keyword

end Delegation
