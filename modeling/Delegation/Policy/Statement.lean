import Delegation.Policy.Condition
import Delegation.Policy.Severity

namespace Delegation

inductive AccessKind
  | permit
  | deny
  | require
  deriving DecidableEq

def AccessKind.text : AccessKind → String
  | permit => "permit"
  | deny => "deny"
  | require => "require"

structure AccessRule where
  action : String
  resource : String
  condition : Option Condition
  severity : Severity
  line : Nat

/-- At most `count` uses in each period of `period` seconds. -/
structure LimitRule where
  action : String
  count : Nat
  period : Nat
  severity : Severity
  line : Nat
  deriving DecidableEq

inductive Statement
  | access (kind : AccessKind) (rule : AccessRule)
  | limit (rule : LimitRule)

def AccessRule.same (r s : AccessRule) : Bool :=
  r.action == s.action && r.resource == s.resource && r.severity == s.severity && r.line == s.line &&
    match r.condition, s.condition with
    | none, none => true
    | some c, some d => c.same d
    | _, _ => false

namespace Statement

def kindText : Statement → String
  | access kind _ => kind.text
  | limit _ => "limit"

def action : Statement → String
  | access _ r => r.action
  | limit r => r.action

def resource : Statement → String
  | access _ r => r.resource
  | limit _ => "**"

def condition : Statement → Option Condition
  | access _ r => r.condition
  | limit _ => none

def severity : Statement → Severity
  | access _ r => r.severity
  | limit r => r.severity

def line : Statement → Nat
  | access _ r => r.line
  | limit r => r.line

def withoutLine : Statement → Statement
  | access kind r => access kind { r with line := 0 }
  | limit r => limit { r with line := 0 }

def same : Statement → Statement → Bool
  | access kind r, access kind' r' => kind == kind' && r.same r'
  | limit r, limit r' => r == r'
  | _, _ => false

def sameAll : List Statement → List Statement → Bool
  | [], [] => true
  | s :: ss, t :: ts => s.same t && sameAll ss ts
  | _, _ => false

def rule? (kind : AccessKind) : Statement → Option AccessRule
  | access kind' r => if kind = kind' then some r else none
  | limit _ => none

def limit? : Statement → Option LimitRule
  | access .. => none
  | limit r => some r

theorem access_of_rule? {kind : AccessKind} {s : Statement} {r : AccessRule}
    (h : s.rule? kind = some r) : access kind r = s := by
  cases s with
  | limit => cases h
  | access kind' r' =>
    simp only [rule?] at h
    split at h
    next hkind =>
      cases h
      rw [hkind]
    next => cases h

theorem limit_of_limit? {s : Statement} {l : LimitRule} (h : s.limit? = some l) : limit l = s := by
  cases s with
  | access => cases h
  | limit => rw [Option.some.inj h]

end Statement

end Delegation
