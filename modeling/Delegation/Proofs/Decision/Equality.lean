import Delegation.Decision.Comparison

namespace Delegation

theorem Binary64.key_eq_of_same {x y : Binary64} (h : x.same y = true) : x.key = y.key :=
  beq_iff_eq.1 h

section

variable {v w : Value} {items items' : List Value}

theorem scalarEqual?_congr (h : v.same w = true) (actual : Json) :
    scalarEqual? actual v = scalarEqual? actual w := by
  cases v <;> cases w <;> simp only [Value.same, Bool.false_eq_true] at h
  case bool => rw [beq_iff_eq.1 h]
  case text => rw [beq_iff_eq.1 h]
  case number x y =>
    have hkey := Binary64.key_eq_of_same h
    have hsame : (fun z : Binary64 => z.same x) = fun z => z.same y := by
      funext z
      rw [Binary64.same, Binary64.same, hkey]
    cases actual <;> simp only [scalarEqual?, hsame]
  case array => cases actual <;> rfl

theorem any_scalarEqual?_congr (h : Value.sameAll items items' = true) (actual : Json) :
    items.any (fun item => scalarEqual? actual item == some true) =
      items'.any fun item => scalarEqual? actual item == some true := by
  induction items generalizing items' with
  | nil =>
    cases items' with
    | nil => rfl
    | cons => cases h
  | cons v items ih =>
    cases items' with
    | nil => cases h
    | cons w items' =>
      rw [Value.sameAll, Bool.and_eq_true] at h
      rw [List.any_cons, List.any_cons, scalarEqual?_congr h.1, ih h.2]

theorem numericOrder?_congr (h : v.same w = true) (actual : Json) :
    numericOrder? actual v = numericOrder? actual w := by
  cases v <;> cases w <;> simp only [Value.same, Bool.false_eq_true] at h
  case number x y => simp only [numericOrder?, Binary64.key_eq_of_same h]
  all_goals rfl

theorem member?_congr (h : v.same w = true) (actual : Json) :
    member? actual v = member? actual w := by
  cases v <;> cases w <;> simp only [Value.same, Bool.false_eq_true] at h
  case array items items' => simp only [member?, any_scalarEqual?_congr h]
  all_goals rfl

theorem textTest_congr (test : List Char → List Char → Bool) (h : v.same w = true)
    (actual : Json) : textTest test actual v = textTest test actual w := by
  cases v <;> cases w <;> simp only [Value.same, Bool.false_eq_true] at h
  case text => rw [beq_iff_eq.1 h]
  all_goals cases actual <;> rfl

theorem contained?_congr (h : v.same w = true) (actual : Json) :
    contained? actual v = contained? actual w := by
  cases actual with
  | array items => simp only [contained?, scalarEqual?_congr h]
  | string s =>
    cases v <;> cases w <;> simp only [Value.same, Bool.false_eq_true] at h
    case text => rw [beq_iff_eq.1 h]
    all_goals rfl
  | _ => rfl

variable [Matchers]

theorem Operator.holds_congr (h : v.same w = true) (op : Operator) (actual : Json) :
    op.holds actual v = op.holds actual w := by
  cases op <;> simp only [holds, scalarEqual?_congr h, numericOrder?_congr h, member?_congr h,
    contained?_congr h, textTest_congr _ h]

end

namespace Condition

variable [Matchers]

mutual

theorem holds_congr (context : Context) :
    ∀ c c' : Condition, c.same c' = true → c.holds context = c'.holds context
  | comparison field op v, comparison field' op' w, h => by
    simp only [same, Bool.and_eq_true, beq_iff_eq] at h
    obtain ⟨⟨rfl, rfl⟩, hv⟩ := h
    simp only [holds, Operator.holds_congr hv]
  | and cs, and cs', h => allHold_congr context cs cs' h
  | or cs, or cs', h => anyHolds_congr context cs cs' h
  | not c, not c', h => congrArg (!·) (holds_congr context c c' h)

theorem allHold_congr (context : Context) : ∀ cs cs' : List Condition,
    sameAll cs cs' = true → allHold context cs = allHold context cs'
  | [], [], _ => rfl
  | c :: cs, c' :: cs', h => by
    rw [sameAll, Bool.and_eq_true] at h
    rw [allHold, allHold, holds_congr context c c' h.1, allHold_congr context cs cs' h.2]

theorem anyHolds_congr (context : Context) : ∀ cs cs' : List Condition,
    sameAll cs cs' = true → anyHolds context cs = anyHolds context cs'
  | [], [], _ => rfl
  | c :: cs, c' :: cs', h => by
    rw [sameAll, Bool.and_eq_true] at h
    rw [anyHolds, anyHolds, holds_congr context c c' h.1, anyHolds_congr context cs cs' h.2]

end

end Condition

end Delegation
