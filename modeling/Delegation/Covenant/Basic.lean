import Delegation.Covenant.Digest
import Delegation.Covenant.Identifier
import Delegation.Covenant.Instant
import Delegation.Decision.Evaluate
import Delegation.Json.Writer
import Delegation.Policy.Canonical
import Delegation.Policy.Interchange
import Delegation.Source.Parse

namespace Delegation

variable [Matchers]

structure Envelope where
  id : Identifier
  issuer : String
  beneficiary : String
  parentId : Option Identifier
  issuedAt : Instant
  expiresAt : Option Instant

structure Covenant extends Envelope where
  /-- The source text of the document, as issued. -/
  constraints : String
  document : Document

namespace Covenant

def issue (envelope : Envelope) (constraints : String) : Noted (Except DocumentError Covenant) :=
  let ⟨notices, result⟩ := parse {} constraints
  ⟨notices, result.map fun document => { envelope with constraints, document }⟩

/-- The envelope of a covenant derived from another: its holder issues it, and it expires with it. -/
def childEnvelope (c : Covenant) (id : Identifier) (beneficiary : String) (issuedAt : Instant) :
    Envelope where
  id := id
  issuer := c.beneficiary
  beneficiary := beneficiary
  parentId := some c.id
  issuedAt := issuedAt
  expiresAt := c.expiresAt

def isExpired (c : Covenant) (now : Instant) : Bool := c.expiresAt.any fun t => decide (t ≤ now)

/-- An expired covenant permits nothing. -/
def evaluate (c : Covenant) (options : EvaluateOptions) (request : Request) (now : Instant) :
    Decision :=
  if c.isExpired now then ⟨false, [], .expired (String.ofList c.id.text)⟩
  else c.document.evaluate options request

def idJson (id : Identifier) : Json := .string (String.ofList id.text)

def timeJson (zone : String) (t : Instant) : Json := .string (String.ofList (t.text zone.toList))

/-- One fixed object with sorted keys and the document's canonical text. -/
def canonicalForm (c : Covenant) : String :=
  String.ofList (Json.object [
    ("beneficiary", .string c.beneficiary),
    ("constraints", .string c.document.canonical),
    ("expires_at", (c.expiresAt.map (timeJson "+00:00")).getD .null),
    ("id", idJson c.id),
    ("issued_at", timeJson "+00:00" c.issuedAt),
    ("issuer", .string c.issuer),
    ("parent_id", (c.parentId.map idJson).getD .null)]).write

def contentHash (c : Covenant) : String := Sha256.hexOf c.canonicalForm

def toJson (c : Covenant) : Json :=
  .object ([("id", idJson c.id), ("issuer", .string c.issuer), ("beneficiary", .string c.beneficiary)] ++
    (c.parentId.map fun id => ("parent_id", idJson id)).toList ++
    [("constraints", .string c.constraints), ("issued_at", timeJson "Z" c.issuedAt)] ++
    (c.expiresAt.map fun t => ("expires_at", timeJson "Z" t)).toList)

def idOf? (j : Json) : Option Identifier := j.text?.bind fun s => Identifier.ofText? s.toList

def timeOf? (j : Json) : Option Instant := j.text?.bind fun s => Instant.ofText? s.toList

def nullable {α : Type} (read : Json → Option α) : Json → Option (Option α)
  | .null => some none
  | j => (read j).map some

def partsOfJson? : Json → Option (Envelope × String)
  | .object fields => do
    let id ← requiredField fields "id" idOf?
    let issuer ← requiredField fields "issuer" Json.text?
    let beneficiary ← requiredField fields "beneficiary" Json.text?
    let parentId ← optionalField fields "parent_id" (nullable idOf?) none
    let constraints ← requiredField fields "constraints" Json.text?
    let issuedAt ← requiredField fields "issued_at" timeOf?
    let expiresAt ← optionalField fields "expires_at" (nullable timeOf?) none
    return ({ id, issuer, beneficiary, parentId, issuedAt, expiresAt }, constraints)
  | _ => none

end Covenant

end Delegation
