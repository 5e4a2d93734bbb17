import Delegation.Config.Matchers
import Delegation.Decision.Comparison

namespace Delegation

inductive ScalarType
  | text
  | number
  | bool
  deriving DecidableEq

namespace Json

def scalarType? : Json → Option ScalarType
  | string _ => some .text
  | int _ | float _ => some .number
  | bool _ => some .bool
  | null | array _ | object _ => none

def isArray : Json → Bool
  | array _ => true
  | _ => false

end Json

def Value.scalarType? : Value → Option ScalarType
  | text _ => some .text
  | number _ => some .number
  | bool _ => some .bool
  | array _ => none

namespace Operator

/-- The operands that an operator compares. -/
def Compares (op : Operator) (actual : Json) (expected : Value) : Prop :=
  match op with
  | equal | notEqual => ∃ type, actual.scalarType? = some type ∧ expected.scalarType? = some type
  | less | greater | atMost | atLeast =>
    actual.scalarType? = some .number ∧ expected.scalarType? = some .number
  | oneOf | noneOf => actual.scalarType?.isSome = true ∧ expected.isArray = true
  | contains | lacks => actual.isArray = true ∧ expected.isArray = false ∨
      actual.scalarType? = some .text ∧ expected.scalarType? = some .text
  | startsWith | endsWith | matchesRegex =>
    actual.scalarType? = some .text ∧ expected.scalarType? = some .text

/-- The operator that denies what another says. -/
def opposite? : Operator → Option Operator
  | equal => some notEqual
  | notEqual => some equal
  | oneOf => some noneOf
  | noneOf => some oneOf
  | contains => some lacks
  | lacks => some contains
  | less | greater | atMost | atLeast | startsWith | endsWith | matchesRegex => none

end Operator

section Answers

variable {actual : Json} {expected : Value}

theorem beq_some_not_of_isSome {answer : Option Bool} (h : answer.isSome = true) (b : Bool) :
    (answer == some !b) = !(answer == some b) := by
  obtain ⟨a, rfl⟩ := Option.isSome_iff_exists.1 h
  cases a <;> cases b <;> rfl

theorem beq_some_of_not_isSome {α : Type} [BEq α] {answer : Option α} (h : ¬answer.isSome = true) (a : α) :
    (answer == some a) = false := by
  rw [Option.not_isSome_iff_eq_none.1 h]
  rfl

theorem scalarEqual?_isSome : (scalarEqual? actual expected).isSome = true ↔
    ∃ type, actual.scalarType? = some type ∧ expected.scalarType? = some type := by
  cases actual <;> cases expected <;>
    simp [scalarEqual?, Json.number?, Json.scalarType?, Value.scalarType?]

theorem numericOrder?_isSome : (numericOrder? actual expected).isSome = true ↔
    actual.scalarType? = some .number ∧ expected.scalarType? = some .number := by
  cases actual <;> cases expected <;>
    simp [numericOrder?, Json.number?, Json.scalarType?, Value.scalarType?]

theorem member?_isSome : (member? actual expected).isSome = true ↔
    actual.scalarType?.isSome = true ∧ expected.isArray = true := by
  cases actual <;> cases expected <;>
    simp [member?, Json.isScalar, Json.scalarType?, Value.isArray]

theorem contained?_isSome : (contained? actual expected).isSome = true ↔
    actual.isArray = true ∨ actual.scalarType? = some .text ∧ expected.scalarType? = some .text := by
  cases actual <;> cases expected <;>
    simp [contained?, Json.isArray, Json.scalarType?, Value.scalarType?]

theorem contained?_of_arrays (hactual : actual.isArray = true) (hexpected : expected.isArray = true) :
    contained? actual expected = some false := by
  cases actual with
  | array items =>
    cases expected with
    | array values =>
      have hitem : ∀ item ∈ items, ¬(scalarEqual? item (.array values) == some true) = true := by
        intro item _
        cases item <;> exact Bool.false_ne_true
      exact congrArg some (List.any_eq_false.2 hitem)
    | _ => cases hexpected
  | _ => cases hactual

theorem contained?_of_not_compares (h : ¬Operator.contains.Compares actual expected) :
    contained? actual expected = if (actual.isArray && expected.isArray) = true then some false else none := by
  by_cases harrays : (actual.isArray && expected.isArray) = true
  · rw [if_pos harrays]
    exact contained?_of_arrays (Bool.and_eq_true_iff.1 harrays).1 (Bool.and_eq_true_iff.1 harrays).2
  · rw [if_neg harrays, ← Option.not_isSome_iff_eq_none, contained?_isSome]
    rintro (hactual | htexts)
    · cases hexpected : expected.isArray with
      | true => exact harrays (Bool.and_eq_true_iff.2 ⟨hactual, hexpected⟩)
      | false => exact h (.inl ⟨hactual, hexpected⟩)
    · exact h (.inr htexts)

theorem types_of_textTest {test : List Char → List Char → Bool} (h : textTest test actual expected = true) :
    actual.scalarType? = some .text ∧ expected.scalarType? = some .text := by
  cases actual with
  | string s =>
    cases expected with
    | text t => exact ⟨rfl, rfl⟩
    | _ => cases h
  | _ => cases h

end Answers

namespace Operator

variable [Matchers] {op opposite : Operator} {actual : Json} {expected : Value}

/-- Of operands that are compared, an operator or its opposite holds, and not both. -/
theorem holds_opposite (h : op.Compares actual expected) (hopposite : op.opposite? = some opposite) :
    opposite.holds actual expected = !op.holds actual expected := by
  cases op <;> cases hopposite
  case equal => exact beq_some_not_of_isSome (scalarEqual?_isSome.2 h) true
  case notEqual => exact beq_some_not_of_isSome (scalarEqual?_isSome.2 h) false
  case oneOf => exact beq_some_not_of_isSome (member?_isSome.2 h) true
  case noneOf => exact beq_some_not_of_isSome (member?_isSome.2 h) false
  case contains => exact beq_some_not_of_isSome (contained?_isSome.2 (h.imp_left And.left)) true
  case lacks => exact beq_some_not_of_isSome (contained?_isSome.2 (h.imp_left And.left)) false

/-- Of other operands no operator holds, but that an array lacks an array. -/
theorem holds_iff_of_not_compares (h : ¬op.Compares actual expected) : op.holds actual expected = true ↔
    op = lacks ∧ actual.isArray = true ∧ expected.isArray = true := by
  have hfalse : op ≠ lacks → op.holds actual expected = false → (op.holds actual expected = true ↔
      op = lacks ∧ actual.isArray = true ∧ expected.isArray = true) := by
    intro hop hholds
    rw [hholds]
    exact iff_of_false Bool.false_ne_true fun hlacks => hop hlacks.1
  cases op with
  | equal => exact hfalse nofun (beq_some_of_not_isSome (mt scalarEqual?_isSome.1 h) true)
  | notEqual => exact hfalse nofun (beq_some_of_not_isSome (mt scalarEqual?_isSome.1 h) false)
  | less => exact hfalse nofun (beq_some_of_not_isSome (mt numericOrder?_isSome.1 h) .lt)
  | greater => exact hfalse nofun (beq_some_of_not_isSome (mt numericOrder?_isSome.1 h) .gt)
  | atMost | atLeast =>
    have hnone : numericOrder? actual expected = none :=
      Option.not_isSome_iff_eq_none.1 (mt numericOrder?_isSome.1 h)
    refine hfalse nofun ?_
    rw [holds, hnone, Option.any_none]
  | oneOf => exact hfalse nofun (beq_some_of_not_isSome (mt member?_isSome.1 h) true)
  | noneOf => exact hfalse nofun (beq_some_of_not_isSome (mt member?_isSome.1 h) false)
  | contains =>
    refine hfalse nofun ?_
    rw [holds, contained?_of_not_compares h]
    split <;> rfl
  | lacks =>
    rw [holds, contained?_of_not_compares h, eq_self_iff_true, true_and, ← Bool.and_eq_true]
    cases actual.isArray && expected.isArray <;> decide
  | startsWith | endsWith | matchesRegex =>
    refine hfalse nofun (Bool.eq_false_iff.2 fun hholds => ?_)
    rw [holds] at hholds
    exact h (types_of_textTest hholds)

end Operator

namespace Condition

/-- A comparison with a field that is missing is false. So is one with a field that the operator does not compare
with the literal, but that an array lacks an array; and where the two are compared, exactly one of two opposite
operators holds. -/
theorem comparison_decided [Matchers] (context : Context) (field : String) (op : Operator) (value : Value) :
    (context.resolve field = none → (comparison field op value).holds context = false) ∧
      ∀ actual, context.resolve field = some actual →
        (¬op.Compares actual value → ((comparison field op value).holds context = true ↔
          op = .lacks ∧ actual.isArray = true ∧ value.isArray = true)) ∧
        (op.Compares actual value → ∀ opposite, op.opposite? = some opposite →
          (comparison field opposite value).holds context = !(comparison field op value).holds context) := by
  have hholds : ∀ op actual, context.resolve field = some actual →
      (comparison field op value).holds context = op.holds actual value := by
    intro op actual hactual
    rw [holds, hactual, Option.any_some]
  constructor
  · intro hnone
    rw [holds, hnone, Option.any_none]
  · intro actual hactual
    rw [hholds op actual hactual]
    refine ⟨Operator.holds_iff_of_not_compares, fun h opposite hopposite => ?_⟩
    rw [hholds opposite actual hactual]
    exact Operator.holds_opposite h hopposite

def markedReport : Context := ⟨[("tags", .array [.string "secret"]), ("pages", .int 12)]⟩

theorem comparison_decided_markedReport :
    let actual := Json.array [.string "secret"]
    markedReport.resolve "title" = none ∧ markedReport.resolve "tags" = some actual ∧
      Operator.contains.Compares actual (.text "secret") ∧
      ¬Operator.equal.Compares actual (.text "secret") ∧
      (comparison "title" .notEqual (.text "plans")).holds markedReport = false ∧
      (comparison "tags" .equal (.text "secret")).holds markedReport = false ∧
      (comparison "tags" .lacks (.text "secret")).holds markedReport =
        !(comparison "tags" .contains (.text "secret")).holds markedReport := by
  intro actual
  have htitle : markedReport.resolve "title" = none := rfl
  have htags : markedReport.resolve "tags" = some actual := rfl
  have hcontains : Operator.contains.Compares actual (.text "secret") := .inl ⟨rfl, rfl⟩
  have hequal : ¬Operator.equal.Compares actual (.text "secret") := by
    rintro ⟨type, htype, -⟩
    cases htype
  have hmissing := (comparison_decided markedReport "title" .notEqual (.text "plans")).1 htitle
  have hfound := (comparison_decided markedReport "tags" .equal (.text "secret")).2 actual htags
  have hopposite := (comparison_decided markedReport "tags" .contains (.text "secret")).2 actual htags
  refine ⟨htitle, htags, hcontains, hequal, hmissing, ?_, hopposite.2 hcontains .lacks rfl⟩
  refine Bool.eq_false_iff.2 fun hholds => ?_
  cases ((hfound.1 hequal).1 hholds).1

/-- The tags lack a list of which the one item is among them. -/
theorem not_comparison_false : ¬ ∀ (context : Context) (field : String) (op : Operator) (value : Value)
    (actual : Json), context.resolve field = some actual → ¬op.Compares actual value →
      (comparison field op value).holds context = false := by
  intro h
  have htags : markedReport.resolve "tags" = some (.array [.string "secret"]) := rfl
  have hlacks : ¬Operator.lacks.Compares (.array [.string "secret"]) (.array [.text "secret"]) := by
    rintro (⟨-, hvalue⟩ | ⟨hactual, -⟩)
    · cases hvalue
    · cases hactual
  cases h markedReport "tags" .lacks (.array [.text "secret"]) _ htags hlacks

end Condition

end Delegation
