import Delegation.Json.Basic
import Delegation.Text.Split

namespace Delegation

structure Context where
  fields : List (String × Json)

namespace Context

/-- A value that is no object knows nothing. -/
def ofJson : Json → Context
  | .object fields => ⟨fields⟩
  | _ => ⟨[]⟩

def descend (fields : List (String × Json)) : List (List Char) → Option Json
  | [] => none
  | [key] => Json.field? fields (String.ofList key)
  | key :: path =>
    match Json.field? fields (String.ofList key) with
    | some (.object inner) => descend inner path
    | _ => none

/-- The value of a dotted path. A field named like the whole path comes before nested ones. -/
def resolve (context : Context) (path : String) : Option Json :=
  (Json.field? context.fields path).or (descend context.fields (splitOn '.' path.toList))

end Context

end Delegation
