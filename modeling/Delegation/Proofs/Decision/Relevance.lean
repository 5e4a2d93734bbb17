import Delegation.Config.Matchers
import Delegation.Proofs.Decision.Equality
import Delegation.Decision.Evaluate
import Delegation.Proofs.Source.Legible
import Mathlib.Data.List.Forall2

namespace Delegation

/-- Equality of JSON values, up to the order of the fields of objects. -/
inductive Json.Alike : Json → Json → Prop
  | null : Alike null null
  | bool (b : Bool) : Alike (bool b) (bool b)
  | int (n : Int) : Alike (int n) (int n)
  | float {x y : Binary64} : x.same y = true → Alike (float x) (float y)
  | string (s : String) : Alike (string s) (string s)
  | array {items items' : List Json} : List.Forall₂ Alike items items' → Alike (array items) (array items')
  | object {fields fields' : List (String × Json)} :
      (∀ key, Option.Rel Alike (field? fields key) (field? fields' key)) → Alike (object fields) (object fields')

namespace Json.Alike

variable {j j' : Json} {items items' : List Json}

theorem number?_key_eq (h : j.Alike j') : j.number?.map (·.key) = j'.number?.map (·.key) := by
  cases h with
  | float hsame => exact congrArg some (Binary64.key_eq_of_same hsame)
  | _ => rfl

theorem text?_eq (h : j.Alike j') : j.text? = j'.text? := by
  cases h <;> rfl

theorem isScalar_eq (h : j.Alike j') : j.isScalar = j'.isScalar := by
  cases h <;> rfl

theorem scalarEqual?_eq (h : j.Alike j') (v : Value) : scalarEqual? j v = scalarEqual? j' v := by
  cases h with
  | array => cases v <;> rfl
  | object => cases v <;> rfl
  | float hsame =>
    cases v with
    | number y => simp only [scalarEqual?, Json.number?, Option.map_some, Binary64.same, Binary64.key_eq_of_same hsame]
    | _ => rfl
  | _ => rfl

theorem numericOrder?_eq (h : j.Alike j') (v : Value) : numericOrder? j v = numericOrder? j' v := by
  cases v with
  | number y =>
    have hkeys := congrArg (·.map (compare · y.key)) h.number?_key_eq
    simp only [Option.map_map] at hkeys
    exact hkeys
  | _ => rfl

theorem member?_eq (h : j.Alike j') (v : Value) : member? j v = member? j' v := by
  cases v <;> simp only [member?, h.isScalar_eq, h.scalarEqual?_eq]

/-- Items that are alike pass a test alike. -/
theorem any_eq {test : Json → Bool} (htest : ∀ {j j'}, j.Alike j' → test j = test j')
    (h : List.Forall₂ Alike items items') : items.any test = items'.any test := by
  induction h with
  | nil => rfl
  | cons hj _ ih => rw [List.any_cons, List.any_cons, htest hj, ih]

theorem contained?_eq (h : j.Alike j') (v : Value) : contained? j v = contained? j' v := by
  cases h with
  | array hitems =>
    refine congrArg some (any_eq ?_ hitems)
    intro item item' hitem
    rw [hitem.scalarEqual?_eq]
  | _ => rfl

theorem textTest_eq (test : List Char → List Char → Bool) (h : j.Alike j') (v : Value) :
    textTest test j v = textTest test j' v := by
  cases h <;> rfl

mutual

theorem refl : ∀ j : Json, j.Alike j
  | .null => .null
  | .bool b => .bool b
  | .int n => .int n
  | .float x => .float (beq_self_eq_true x.key)
  | .string s => .string s
  | .array items => .array (refl_items items)
  | .object fields => .object (refl_fields fields)

theorem refl_items : ∀ items : List Json, List.Forall₂ Alike items items
  | [] => .nil
  | j :: items => .cons (refl j) (refl_items items)

theorem refl_fields : ∀ (fields : List (String × Json)) (key : String),
    Option.Rel Alike (field? fields key) (field? fields key)
  | [], _ => .none
  | (key', j) :: fields, key => by
    rw [field?, List.lookup_cons]
    cases key == key' with
    | true => exact .some (refl j)
    | false => exact refl_fields fields key

end

variable [Matchers]

theorem holds_eq (h : j.Alike j') (op : Operator) (v : Value) : op.holds j v = op.holds j' v := by
  cases op <;> simp only [Operator.holds, h.scalarEqual?_eq, h.numericOrder?_eq, h.member?_eq, h.contained?_eq,
    h.textTest_eq]

end Json.Alike

namespace Context

/-- Two contexts answer alike for a path. -/
def AgreeAt (context context' : Context) (path : String) : Prop :=
  Option.Rel Json.Alike (context.resolve path) (context'.resolve path)

variable {context context' : Context} {path : String}

theorem agreeAt_of_eq (h : context.resolve path = context'.resolve path) : context.AgreeAt context' path := by
  rw [AgreeAt, h]
  cases context'.resolve path with
  | none => exact .none
  | some j => exact .some (.refl j)

theorem AgreeAt.cases (h : context.AgreeAt context' path) :
    context.resolve path = none ∧ context'.resolve path = none ∨
      ∃ j j', context.resolve path = some j ∧ context'.resolve path = some j' ∧ j.Alike j' := by
  rw [AgreeAt] at h
  generalize context.resolve path = answer at h
  generalize context'.resolve path = answer' at h
  cases h with
  | none => exact .inl ⟨rfl, rfl⟩
  | some hj => exact .inr ⟨_, _, rfl, rfl, hj⟩

end Context

variable {context context' : Context} {options : EvaluateOptions}

/-- A value, or the positive zero for either zero. -/
def Binary64.unsigned (x : Binary64) : Binary64 := if x.rank = 0 then { negative := false, rank := 0 } else x

theorem Binary64.unsigned_eq_of_same {x y : Binary64} (h : x.same y = true) : x.unsigned = y.unsigned := by
  have hkey := key_eq_of_same h
  obtain ⟨negative, rank, hrank⟩ := x
  obtain ⟨negative', rank', hrank'⟩ := y
  simp only [unsigned, key] at hkey ⊢
  by_cases hzero : rank = 0
  · have hzero' : rank' = 0 := by
      subst hzero
      split at hkey <;> split at hkey <;> omega
    rw [if_pos hzero, if_pos hzero']
  · have heq : negative = negative' ∧ rank = rank' := by
      cases negative <;> cases negative' <;> simp at hkey ⊢ <;> omega
    obtain ⟨rfl, rfl⟩ := heq
    rfl

def Bearing.unsigned : Bearing → Bearing
  | exceeded used => exceeded used.unsigned
  | b => b

/-- A reason, with no sign to a zero count. -/
def Reason.unsigned : Reason → Reason
  | exceeded limit used => exceeded limit used.unsigned
  | r => r

theorem Bearing.level_unsigned (b : Bearing) : b.unsigned.level = b.level := by
  cases b <;> rfl

namespace Match

def unsigned (m : Match) : Match := { m with bearing := m.bearing.unsigned }

theorem precedes_unsigned (m n : Match) : m.unsigned.precedes n.unsigned = m.precedes n := by
  simp only [precedes, specificity, unsigned, Bearing.level_unsigned]

theorem permitted_unsigned (m : Match) : m.unsigned.bearing = .permitted ↔ m.bearing = .permitted := by
  obtain ⟨bearing, statement⟩ := m
  cases bearing <;> simp [unsigned, Bearing.unsigned]

theorem reason_unsigned (m : Match) : m.unsigned.reason = m.reason.unsigned := by
  obtain ⟨bearing, statement⟩ := m
  cases bearing <;> cases statement <;> rfl

end Match

/-- The count of uses in a context, if it has a number for it. -/
def Context.count? (context : Context) (options : EvaluateOptions) : Option Binary64 :=
  (context.resolve options.limitCountKey).bind (·.number?)

theorem Context.AgreeAt.count?_key_eq (h : context.AgreeAt context' options.limitCountKey) :
    (context.count? options).map (·.key) = (context'.count? options).map (·.key) := by
  rw [count?, count?]
  rcases h.cases with ⟨hnone, hnone'⟩ | ⟨j, j', hj, hj', halike⟩
  · rw [hnone, hnone']
  · rw [hj, hj', Option.bind_some, Option.bind_some, halike.number?_key_eq]

namespace LimitRule

/-- How a governing limit bears on a request after a count of uses. -/
def bearingAfter (l : LimitRule) : Option Binary64 → Bearing
  | some used => if (Binary64.ofNat l.count).atMost used then .exceeded used else .within
  | none => .within

theorem bearing_eq (l : LimitRule) : l.bearing options context = l.bearingAfter (context.count? options) := rfl

theorem bearing_unsigned_of_agree (l : LimitRule) (h : context.AgreeAt context' options.limitCountKey) :
    (l.bearing options context).unsigned = (l.bearing options context').unsigned := by
  have hkeys := h.count?_key_eq
  rw [bearing_eq, bearing_eq]
  generalize context.count? options = count at hkeys
  generalize context'.count? options = count' at hkeys
  cases count with
  | none =>
    rw [Option.map_none, eq_comm, Option.map_eq_none_iff] at hkeys
    rw [hkeys]
  | some used =>
    rw [Option.map_some, eq_comm, Option.map_eq_some_iff] at hkeys
    obtain ⟨used', rfl, hkey⟩ := hkeys
    have hreached : (Binary64.ofNat l.count).atMost used = (Binary64.ofNat l.count).atMost used' := by
      rw [Binary64.atMost, Binary64.atMost, hkey]
    rw [bearingAfter, bearingAfter, hreached]
    split
    · exact congrArg Bearing.exceeded (Binary64.unsigned_eq_of_same (beq_iff_eq.2 hkey.symm))
    · rfl

end LimitRule

namespace Condition

variable [Matchers]

theorem holds_comparison_of_agree {field : String} (h : context.AgreeAt context' field) (op : Operator) (v : Value) :
    (comparison field op v).holds context = (comparison field op v).holds context' := by
  rw [holds, holds]
  rcases h.cases with ⟨hnone, hnone'⟩ | ⟨j, j', hj, hj', halike⟩
  · rw [hnone, hnone']
  · rw [hj, hj', Option.any_some, Option.any_some, halike.holds_eq]

mutual

theorem holds_eq_of_agree : ∀ c : Condition, (∀ field ∈ c.fields, context.AgreeAt context' field) →
    c.holds context = c.holds context'
  | comparison field op v, h => holds_comparison_of_agree (h field List.mem_cons_self) op v
  | and cs, h => allHold_eq_of_agree cs h
  | or cs, h => anyHolds_eq_of_agree cs h
  | not c, h => congrArg (!·) (holds_eq_of_agree c h)

theorem allHold_eq_of_agree : ∀ cs : List Condition,
    (∀ field ∈ (comparisonsAll cs).map (·.1), context.AgreeAt context' field) →
      allHold context cs = allHold context' cs
  | [], _ => rfl
  | c :: cs, h => by
    rw [comparisonsAll, List.map_append, List.forall_mem_append] at h
    rw [allHold, allHold, holds_eq_of_agree c h.1, allHold_eq_of_agree cs h.2]

theorem anyHolds_eq_of_agree : ∀ cs : List Condition,
    (∀ field ∈ (comparisonsAll cs).map (·.1), context.AgreeAt context' field) →
      anyHolds context cs = anyHolds context' cs
  | [], _ => rfl
  | c :: cs, h => by
    rw [comparisonsAll, List.map_append, List.forall_mem_append] at h
    rw [anyHolds, anyHolds, holds_eq_of_agree c h.1, anyHolds_eq_of_agree cs h.2]

end

end Condition

section

variable [Matchers]

theorem AccessRule.applies_eq_of_agree {r : AccessRule} (action resource : String)
    (h : ∀ c, r.condition = some c → ∀ field ∈ c.fields, context.AgreeAt context' field) :
    r.applies ⟨action, resource, context⟩ = r.applies ⟨action, resource, context'⟩ := by
  rw [applies, applies]
  cases hc : r.condition with
  | none => rfl
  | some c => rw [Option.all_some, Option.all_some, Condition.holds_eq_of_agree c (h c hc)]

theorem AccessRule.isMet_eq_of_agree (r : AccessRule) (h : context.AgreeAt context' options.obligationsKey) :
    r.isMet options context = r.isMet options context' := by
  rw [isMet, isMet]
  rcases h.cases with ⟨hnone, hnone'⟩ | ⟨j, j', hj, hj', halike⟩
  · rw [hnone, hnone']
  · rw [hj, hj']
    cases halike with
    | array hitems => exact Json.Alike.any_eq (fun hitem => by rw [hitem.text?_eq]) hitems
    | _ => rfl

end

namespace Document

section

variable [Matchers]

def fields (d : Document) : List String := d.statements.flatMap fun s => s.condition.toList.flatMap (·.fields)

variable {d : Document}

theorem mem_fields {s : Statement} {c : Condition} {field : String} (hs : s ∈ d.statements)
    (hc : s.condition = some c) (hfield : field ∈ c.fields) : field ∈ d.fields := by
  rw [fields, List.mem_flatMap]
  refine ⟨s, hs, ?_⟩
  rw [hc, Option.toList_some, List.flatMap_singleton]
  exact hfield

theorem bearing_eq_of_agree (kind : AccessKind) (r : AccessRule)
    (h : context.AgreeAt context' options.obligationsKey) :
    bearing kind r options context = bearing kind r options context' := by
  cases kind with
  | require => rw [bearing, bearing, r.isMet_eq_of_agree h]
  | _ => rfl

theorem accessMatch?_eq_of_agree (action resource : String) {s : Statement}
    (hfields : ∀ c, s.condition = some c → ∀ field ∈ c.fields, context.AgreeAt context' field)
    (hobligations : context.AgreeAt context' options.obligationsKey) :
    accessMatch? options ⟨action, resource, context⟩ s = accessMatch? options ⟨action, resource, context'⟩ s := by
  cases s with
  | access kind r =>
    rw [accessMatch?, accessMatch?, AccessRule.applies_eq_of_agree action resource hfields,
      bearing_eq_of_agree kind r hobligations]
  | limit l => rfl

theorem limitMatch?_unsigned_of_agree (action resource : String)
    (h : context.AgreeAt context' options.limitCountKey) :
    (d.limitMatch? options ⟨action, resource, context⟩).map Match.unsigned =
      (d.limitMatch? options ⟨action, resource, context'⟩).map Match.unsigned := by
  rw [limitMatch?, limitMatch?, Option.map_map, Option.map_map]
  refine Option.map_congr fun l _ => ?_
  simp only [Function.comp_apply, Match.unsigned, l.bearing_unsigned_of_agree h]

theorem accessMatches_eq_of_agree (action resource : String)
    (h : ∀ path ∈ d.fields ++ [options.limitCountKey, options.obligationsKey], context.AgreeAt context' path) :
    d.statements.filterMap (accessMatch? options ⟨action, resource, context⟩) =
      d.statements.filterMap (accessMatch? options ⟨action, resource, context'⟩) := by
  obtain ⟨hfields, hkeys⟩ := List.forall_mem_append.1 h
  have hobligations := hkeys _ (List.mem_cons_of_mem _ List.mem_cons_self)
  refine List.filterMap_congr fun s hs => accessMatch?_eq_of_agree action resource ?_ hobligations
  exact fun c hc field hfield => hfields field (mem_fields hs hc hfield)

theorem ranked_unsigned_of_agree (action resource : String)
    (h : ∀ path ∈ d.fields ++ [options.limitCountKey, options.obligationsKey], context.AgreeAt context' path) :
    (d.ranked options ⟨action, resource, context⟩).map Match.unsigned =
      (d.ranked options ⟨action, resource, context'⟩).map Match.unsigned := by
  have hlimit := limitMatch?_unsigned_of_agree (d := d) action resource
    ((List.forall_mem_append.1 h).2 _ List.mem_cons_self)
  have hsort : ∀ matches' : List Match, (matches'.mergeSort Match.precedes).map Match.unsigned =
      (matches'.map Match.unsigned).mergeSort Match.precedes :=
    fun _ => List.map_mergeSort fun m _ n _ => (m.precedes_unsigned n).symm
  rw [ranked, ranked, hsort, hsort, List.map_append, List.map_append, accessMatches_eq_of_agree action resource h,
    ← Option.toList_map, ← Option.toList_map, hlimit]

/-- But for the sign of a zero count, a decision is read off the matches without it. -/
theorem evaluate_of_ranked_unsigned {request request' : Request}
    (h : (d.ranked options request).map Match.unsigned = (d.ranked options request').map Match.unsigned) :
    (d.evaluate options request).permitted = (d.evaluate options request').permitted ∧
      (d.evaluate options request).matched = (d.evaluate options request').matched ∧
      (d.evaluate options request).reason.unsigned = (d.evaluate options request').reason.unsigned := by
  have hstatements := congrArg (List.map (·.statement)) h
  rw [List.map_map, List.map_map] at hstatements
  rw [evaluate, evaluate]
  cases hd : d.ranked options request with
  | nil =>
    rw [hd, List.map_nil, eq_comm, List.map_eq_nil_iff] at h
    rw [h]
    exact ⟨rfl, rfl, rfl⟩
  | cons m ms =>
    rw [hd, List.map_cons, eq_comm, List.map_eq_cons_iff] at h
    obtain ⟨n, ns, hd', hm, -⟩ := h
    rw [hd, hd'] at hstatements
    rw [hd']
    refine ⟨?_, hstatements, ?_⟩
    · change decide _ = decide _
      rw [decide_eq_decide, ← m.permitted_unsigned, ← n.permitted_unsigned, hm]
    · rw [← m.reason_unsigned, ← n.reason_unsigned, hm]

/-- Contexts that answer alike for the fields which the conditions of a document name, for the count of uses and for
the actions performed, lead to the same decision but for the sign of a zero count in its reason; and to the very
same one if they have the same count. -/
theorem evaluate_eq_of_agree (d : Document) (options : EvaluateOptions) (context context' : Context)
    (h : ∀ path ∈ d.fields ++ [options.limitCountKey, options.obligationsKey], context.AgreeAt context' path)
    (action resource : String) :
    let decision := d.evaluate options ⟨action, resource, context⟩
    let decision' := d.evaluate options ⟨action, resource, context'⟩
    decision.permitted = decision'.permitted ∧ decision.matched = decision'.matched ∧
      decision.reason.unsigned = decision'.reason.unsigned ∧
      (context.count? options = context'.count? options → decision = decision') := by
  intro decision decision'
  obtain ⟨hpermitted, hmatched, hreason⟩ := evaluate_of_ranked_unsigned (ranked_unsigned_of_agree action resource h)
  refine ⟨hpermitted, hmatched, hreason, fun hcount => ?_⟩
  have hlimit : d.limitMatch? options ⟨action, resource, context⟩ =
      d.limitMatch? options ⟨action, resource, context'⟩ := by
    rw [limitMatch?, limitMatch?]
    refine Option.map_congr fun l _ => ?_
    rw [l.bearing_eq, l.bearing_eq, hcount]
  change d.evaluate _ _ = d.evaluate _ _
  rw [evaluate, evaluate, ranked, ranked, accessMatches_eq_of_agree action resource h, hlimit]

end

def isAnalyst : Condition :=
  .and [.comparison "user.role" .equal (.text "analyst"), .not (.comparison "user" .oneOf (.array [.text "guest"]))]

def analystRules : Document where
  statements := [.access .permit ⟨"file.read", "/reports/**", some isAnalyst, .high, 1⟩,
    .access .require ⟨"audit.log", "**", none, .high, 2⟩, .limit ⟨"file.read", 3, 3600, .high, 3⟩]
  wellFormed := by decide +kernel

def analyst : Context :=
  ⟨[("user", .object [("role", .string "analyst"), ("balance", .float { negative := false, rank := 0 })]),
    ("_limit_count", .int 2), ("_obligations_met", .array [.string "audit.log"]), ("region", .string "north")]⟩

def analystElsewhere : Context :=
  ⟨[("nonce", .int 4), ("_limit_count", .int 2), ("_obligations_met", .array [.string "audit.log"]),
    ("user", .object [("balance", .float { negative := true, rank := 0 }), ("role", .string "analyst")])]⟩

theorem evaluate_eq_of_agree_analyst :
    (∀ path ∈ analystRules.fields ++ ["_limit_count", "_obligations_met"],
        analyst.AgreeAt analystElsewhere path) ∧
      analystRules.evaluate {} ⟨"file.read", "/reports/q3", analyst⟩ =
        analystRules.evaluate {} ⟨"file.read", "/reports/q3", analystElsewhere⟩ := by
  have huser : analyst.AgreeAt analystElsewhere "user" := by
    refine Option.Rel.some (.object fun key => ?_)
    by_cases hrole : key = "role"
    · rw [hrole]
      exact .some (.string "analyst")
    · by_cases hbalance : key = "balance"
      · rw [hbalance]
        exact .some (.float rfl)
      · simp [Json.field?, List.lookup_cons, beq_eq_false_iff_ne.2 hrole, beq_eq_false_iff_ne.2 hbalance]
  have hagree : ∀ path ∈ analystRules.fields ++ ["_limit_count", "_obligations_met"],
      analyst.AgreeAt analystElsewhere path := by
    have hpaths : analystRules.fields ++ ["_limit_count", "_obligations_met"] =
        ["user.role", "user", "_limit_count", "_obligations_met"] := rfl
    rw [hpaths]
    simp only [List.forall_mem_cons, List.not_mem_nil, false_implies, implies_true, and_true]
    exact ⟨Context.agreeAt_of_eq rfl, huser, Context.agreeAt_of_eq rfl, Context.agreeAt_of_eq rfl⟩
  obtain ⟨-, -, -, hsame⟩ :=
    evaluate_eq_of_agree analystRules {} analyst analystElsewhere hagree "file.read" "/reports/q3"
  exact ⟨hagree, hsame rfl⟩

def forbiddenCall : Document where
  statements := [.limit ⟨"api.call", 0, 60, .high, 1⟩]
  wellFormed := by decide +kernel

def noUses (negative : Bool) : Context := ⟨[("_limit_count", .float { negative, rank := 0 })]⟩

/-- Equal counts of both signs, and two reasons. -/
theorem not_evaluate_eq_of_agree :
    (∀ path ∈ forbiddenCall.fields ++ ["_limit_count", "_obligations_met"],
        (noUses false).AgreeAt (noUses true) path) ∧
      (forbiddenCall.evaluate {} ⟨"api.call", "/", noUses false⟩).reason.message =
        "rate limit exceeded for 'api.call': 0 of 0 per 60 seconds used (severity high)" ∧
      (forbiddenCall.evaluate {} ⟨"api.call", "/", noUses true⟩).reason.message =
        "rate limit exceeded for 'api.call': -0 of 0 per 60 seconds used (severity high)" := by
  refine ⟨?_, by decide +kernel, by decide +kernel⟩
  have hpaths : forbiddenCall.fields ++ ["_limit_count", "_obligations_met"] =
      ["_limit_count", "_obligations_met"] := rfl
  rw [hpaths]
  simp only [List.forall_mem_cons, List.not_mem_nil, false_implies, implies_true, and_true]
  exact ⟨.some (.float rfl), Context.agreeAt_of_eq rfl⟩

end Document

end Delegation
