import Delegation.Covenant.Basic
import Delegation.Policy.Narrowing

namespace Delegation

variable [Matchers]

inductive ChainDefect
  | brokenLink (depth : Nat) (expected : Identifier) (found : Option Identifier)
  | outlivesParent (depth : Nat)
  | excess (depth : Nat) (excess : Excess)

def ChainDefect.message : ChainDefect → String
  | brokenLink depth expected _ =>
    "covenant at depth " ++ toString depth ++ " does not link to " ++ String.ofList expected.text
  | outlivesParent depth => "covenant at depth " ++ toString depth ++ " outlives its parent"
  | excess depth e => "covenant at depth " ++ toString depth ++ " exceeds its parent: " ++ e.message

namespace Covenant

/-- Whether a covenant may be used after another has expired. -/
def outlives (child parent : Covenant) : Bool :=
  match parent.expiresAt, child.expiresAt with
  | none, _ => false
  | some _, none => true
  | some limit, some t => !decide (t ≤ limit)

def linkDefects (depth : Nat) (parent child : Covenant) : List ChainDefect :=
  (if child.parentId = some parent.id then [] else [.brokenLink depth parent.id child.parentId]) ++
    (if child.outlives parent then [.outlivesParent depth] else []) ++
    (parent.document.excesses child.document).map (.excess depth)

def chainDefects (depth : Nat) : List Covenant → List ChainDefect
  | parent :: child :: rest =>
    linkDefects (depth + 1) parent child ++ chainDefects (depth + 1) (child :: rest)
  | _ => []

def defects (chain : List Covenant) : List ChainDefect := chainDefects 0 chain

end Covenant

end Delegation
