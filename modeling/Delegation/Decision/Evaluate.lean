import Delegation.Decision.Comparison
import Delegation.Decision.Limit
import Delegation.Number.Decimal

namespace Delegation

variable [Matchers]

structure EvaluateOptions where
  limitCountKey : String := "_limit_count"
  /-- Where the context lists the actions that were performed. -/
  obligationsKey : String := "_obligations_met"
  deriving DecidableEq

structure Request where
  action : String
  resource : String
  context : Context

inductive Bearing
  | denied
  | unmet
  | exceeded (used : Binary64)
  | permitted
  | met
  | within
  deriving DecidableEq

def Bearing.level : Bearing → Nat
  | denied => 0
  | unmet => 1
  | exceeded _ => 2
  | permitted => 3
  | met => 4
  | within => 5

inductive Reason
  | noRule
  | denied (resource : String) (severity : Severity)
  | unmet (action resource : String) (severity : Severity)
  | exceeded (limit : LimitRule) (used : Binary64)
  | permitted (resource : String)
  | noPermit
  | expired (covenant : String)

def Reason.message : Reason → String
  | noRule => "no matching rule"
  | denied resource severity =>
    "denied by rule on '" ++ resource ++ "' (severity " ++ severity.text ++ ")"
  | unmet action resource severity => "obligation '" ++ action ++ "' on '" ++ resource ++
    "' not met (severity " ++ severity.text ++ ")"
  | exceeded limit used => "rate limit exceeded for '" ++ limit.action ++ "': " ++
    String.ofList used.text ++ " of " ++ toString limit.count ++ " per " ++ toString limit.period ++
    " seconds used (severity " ++ limit.severity.text ++ ")"
  | permitted resource => "permitted by rule on '" ++ resource ++ "'"
  | noPermit => "no matching permit rule"
  | expired covenant => "covenant " ++ covenant ++ " expired"

structure Decision where
  permitted : Bool
  /-- The statements that bear on the request, the deciding one first. -/
  matched : List Statement
  reason : Reason

def Decision.severity? (d : Decision) : Option Severity := d.matched.head?.map (·.severity)

structure Match where
  bearing : Bearing
  statement : Statement

namespace Match

def specificity (m : Match) : Specificity := .of m.statement.action m.statement.resource

/-- The order of matches: by level, and on one level the more precise first. -/
def precedes (m n : Match) : Bool :=
  m.bearing.level < n.bearing.level ||
    (m.bearing.level == n.bearing.level && n.specificity.order m.specificity != .gt)

def reason (m : Match) : Reason :=
  match m.bearing, m.statement with
  | .denied, s => .denied s.resource s.severity
  | .unmet, s => .unmet s.action s.resource s.severity
  | .exceeded used, .limit l => .exceeded l used
  | .permitted, s => .permitted s.resource
  | _, _ => .noPermit

end Match

namespace AccessRule

def applies (r : AccessRule) (request : Request) : Bool :=
  PatternKind.action.describes r.action request.action &&
    PatternKind.resource.describes r.resource request.resource &&
    r.condition.all (·.holds request.context)

/-- Whether the context lists an action that fulfils the rule as an obligation. -/
def isMet (r : AccessRule) (options : EvaluateOptions) (context : Context) : Bool :=
  match context.resolve options.obligationsKey with
  | some (.array items) =>
    items.any fun item => item.text?.any fun performed => PatternKind.action.describes r.action performed
  | _ => false

end AccessRule

namespace LimitRule

def bearing (l : LimitRule) (options : EvaluateOptions) (context : Context) : Bearing :=
  match (context.resolve options.limitCountKey).bind (·.number?) with
  | some used => if (Binary64.ofNat l.count).atMost used then .exceeded used else .within
  | none => .within

end LimitRule

namespace Document

def bearing (kind : AccessKind) (r : AccessRule) (options : EvaluateOptions) (context : Context) :
    Bearing :=
  match kind with
  | .deny => .denied
  | .permit => .permitted
  | .require => if r.isMet options context then .met else .unmet

def accessMatch? (options : EvaluateOptions) (request : Request) : Statement → Option Match
  | .access kind r =>
    if r.applies request then some ⟨bearing kind r options request.context, .access kind r⟩ else none
  | .limit _ => none

def limitMatch? (d : Document) (options : EvaluateOptions) (request : Request) : Option Match :=
  (d.governingLimit? request.action).map fun l => ⟨l.bearing options request.context, .limit l⟩

def ranked (d : Document) (options : EvaluateOptions) (request : Request) : List Match :=
  (d.statements.filterMap (accessMatch? options request) ++
    (d.limitMatch? options request).toList).mergeSort Match.precedes

def evaluate (d : Document) (options : EvaluateOptions) (request : Request) : Decision :=
  match d.ranked options request with
  | [] => ⟨false, [], .noRule⟩
  | head :: rest =>
    ⟨head.bearing = .permitted, (head :: rest).map (·.statement), head.reason⟩

end Document

end Delegation
