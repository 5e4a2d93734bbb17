import Delegation.Number.Binary64
import Delegation.Policy.Operator
import Delegation.Policy.Value

namespace Delegation

inductive Condition
  | comparison (field : String) (op : Operator) (value : Value)
  | and (operands : List Condition)
  | or (operands : List Condition)
  | not (operand : Condition)

namespace Condition

mutual

def depth : Condition → Nat
  | comparison .. => 1
  | and operands | or operands => 1 + depthAll operands
  | not operand => 1 + operand.depth

def depthAll : List Condition → Nat
  | [] => 0
  | c :: cs => max c.depth (depthAll cs)

end

mutual

/-- Equality in which numbers are compared by value. -/
def same : Condition → Condition → Bool
  | comparison field op value, comparison field' op' value' =>
    field == field' && op == op' && value.same value'
  | and operands, and operands' | or operands, or operands' => sameAll operands operands'
  | not operand, not operand' => operand.same operand'
  | _, _ => false

def sameAll : List Condition → List Condition → Bool
  | [], [] => true
  | c :: cs, c' :: cs' => c.same c' && sameAll cs cs'
  | _, _ => false

end

end Condition

end Delegation
