namespace Delegation

/-- What is asked of libraries that match texts. A glob or a regular expression is invalid, or it is a test of
texts. -/
class Matchers where
  /-- The glob that a text matches if it is the given one. -/
  escape : List Char → List Char
  glob? : List Char → Option (List Char → Bool)
  regex? : List Char → Option (List Char → Bool)

end Delegation
