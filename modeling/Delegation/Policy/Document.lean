import Delegation.Pattern.Action
import Delegation.Policy.Statement
import Delegation.Text.Matchers

namespace Delegation

variable [Matchers]

inductive DocumentFault
  | action (pattern : String) (fault : ActionFault)
  | emptyResource (kind : AccessKind) (action : String)
  | tooDeep
  | malformedField (field : String)
  | arrayNeeded (op : Operator) (field : String)
  | emptyArray (field : String)
  | badRegex (pattern : String)
  | patternNeeded (field : String)
  | tooFewOperands
  | zeroPeriod (action : String)

def maxDocumentDepth : Nat := 128

def isRegex (pattern : String) : Bool := (Matchers.regex? pattern.toList).isSome

def DocumentFault.message : DocumentFault → String
  | action pattern fault => fault.message pattern
  | emptyResource kind pattern => kind.text ++ " '" ++ pattern ++ "' has an empty resource pattern"
  | tooDeep => "condition nesting exceeds " ++ toString maxDocumentDepth ++ " levels"
  | malformedField field => "malformed field path '" ++ field ++ "'"
  | arrayNeeded op field =>
    "operator '" ++ op.text ++ "' on '" ++ field ++ "' requires an array value"
  | emptyArray field => "comparison on '" ++ field ++ "' has an empty array value"
  | badRegex pattern => "invalid regex '" ++ pattern ++ "'"
  | patternNeeded field => "operator 'matches' on '" ++ field ++ "' requires a string pattern"
  | tooFewOperands => "'and'/'or' conditions need at least two operands"
  | zeroPeriod pattern => "limit on '" ++ pattern ++ "' has a zero-length period"

def isFieldPath (field : String) : Bool := (splitOn '.' field.toList).all (!·.isEmpty)

def comparisonFault? (field : String) (op : Operator) (value : Value) : Option DocumentFault :=
  if !isFieldPath field then some (.malformedField field)
  else if op.expectsArray && !value.isArray then some (.arrayNeeded op field)
  else if value.hasEmptyArray then some (.emptyArray field)
  else if op = .matchesRegex then
    match value with
    | .text pattern => if isRegex pattern then none else some (.badRegex pattern)
    | _ => some (.patternNeeded field)
  else none

namespace Condition

mutual

def fault? (depth : Nat) : Condition → Option DocumentFault
  | comparison field op value =>
    if depth > maxDocumentDepth then some .tooDeep else comparisonFault? field op value
  | and operands | or operands =>
    if depth > maxDocumentDepth then some .tooDeep
    else if operands.length < 2 then some .tooFewOperands
    else firstFault? (depth + 1) operands
  | not operand =>
    if depth > maxDocumentDepth then some .tooDeep else operand.fault? (depth + 1)

def firstFault? (depth : Nat) : List Condition → Option DocumentFault
  | [] => none
  | c :: cs => (c.fault? depth).or (firstFault? depth cs)

end

end Condition

namespace Statement

def fault? (s : Statement) : Option DocumentFault :=
  match ActionPattern.fault? s.action with
  | some fault => some (.action s.action fault)
  | none =>
    match s with
    | access kind r =>
      if r.resource.isEmpty then some (.emptyResource kind r.action)
      else r.condition.bind (·.fault? 1)
    | limit r => if r.period = 0 then some (.zeroPeriod r.action) else none

theorem action_fault?_eq_none {s : Statement} (h : s.fault? = none) :
    ActionPattern.fault? s.action = none := by
  unfold fault? at h
  split at h
  next => cases h
  next hnone => exact hnone

theorem access_of_fault? {kind : AccessKind} {r : AccessRule}
    (h : (access kind r).fault? = none) :
    r.resource.isEmpty = false ∧ r.condition.bind (·.fault? 1) = none := by
  unfold fault? at h
  split at h
  · cases h
  · dsimp only at h
    split at h
    next => cases h
    next hresource => exact ⟨Bool.eq_false_iff.2 hresource, h⟩

theorem limit_of_fault? {r : LimitRule} (h : (limit r).fault? = none) : 0 < r.period := by
  unfold fault? at h
  split at h
  · cases h
  · dsimp only at h
    split at h
    next => cases h
    next hperiod => exact Nat.pos_of_ne_zero hperiod

end Statement

structure Document where
  statements : List Statement
  wellFormed : ∀ s ∈ statements, s.fault? = none

namespace Document

/-- A document of statements, or the first fault in them. -/
def ofStatements (statements : List Statement) : Except DocumentFault Document :=
  match h : statements.findSome? Statement.fault? with
  | some fault => .error fault
  | none => .ok ⟨statements, List.findSome?_eq_none_iff.1 h⟩

theorem ofStatements_statements (d : Document) : ofStatements d.statements = .ok d := by
  unfold ofStatements
  split
  next fault hfault =>
    rw [List.findSome?_eq_none_iff.2 d.wellFormed] at hfault
    cases hfault
  next => rfl

theorem statements_of_ofStatements {ss : List Statement} {d : Document}
    (h : ofStatements ss = .ok d) : d.statements = ss := by
  unfold ofStatements at h
  split at h
  · cases h
  · cases h
    rfl

def empty : Document := ⟨[], nofun⟩

def rules (d : Document) (kind : AccessKind) : List AccessRule :=
  d.statements.filterMap (·.rule? kind)

def limits (d : Document) : List LimitRule := d.statements.filterMap (·.limit?)

def same (d e : Document) : Bool := Statement.sameAll d.statements e.statements

def sameWithoutLines (d e : Document) : Bool :=
  Statement.sameAll (d.statements.map (·.withoutLine)) (e.statements.map (·.withoutLine))

end Document

end Delegation
