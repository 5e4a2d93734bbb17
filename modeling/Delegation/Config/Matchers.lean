import Delegation.Pattern.Alignment
import Delegation.Regex.Reader
import Delegation.Text.Matchers

namespace Delegation

def hasDoubleStar : List Char → Bool
  | '*' :: '*' :: _ => true
  | _ :: cs => hasDoubleStar cs
  | [] => false

/-- The matchers that an engine runs with. In a glob no character but the star has a meaning of its own, so there
is nothing to escape; a regular expression may name general categories of characters, but no scripts. -/
instance runningMatchers : Matchers where
  escape text := text
  glob? pattern :=
    if hasDoubleStar pattern then none
    else some fun text => (wildcardMatch (· == '*') (· == ·)).holds pattern text
  regex? pattern := (Regex.ofText? pattern).map fun r text => r.occursIn text

end Delegation
