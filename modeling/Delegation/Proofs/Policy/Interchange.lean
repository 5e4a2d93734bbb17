import Delegation.Config.Matchers
import Delegation.Policy.Interchange
import Delegation.Proofs.Json.RoundTrip
import Delegation.Proofs.Source.Legible

namespace Delegation

open Json

attribute [local instance (2000)] instPowNat

theorem Operator.ofText?_text (op : Operator) : ofText? op.text = some op := by
  cases op <;> decide

theorem Severity.ofText?_text (severity : Severity) : ofText? severity.text = some severity := by
  cases severity <;> decide

namespace Value

mutual

theorem ofJson?_toJson : ∀ v : Value, ofJson? v.toJson = some v
  | .bool b => rfl
  | .number x => rfl
  | .text s => rfl
  | .array items => by rw [toJson, ofJson?, ofJsonAll?_toJsonAll items, Option.map_some]

theorem ofJsonAll?_toJsonAll : ∀ vs : List Value, ofJsonAll? (toJsonAll vs) = some vs
  | [] => rfl
  | v :: vs => by rw [toJsonAll, ofJsonAll?, ofJson?_toJson v, ofJsonAll?_toJsonAll vs]

end

mutual

theorem legible_toJson : ∀ v : Value, (∀ x ∈ v.numbers, Json.Legible (.float x)) → v.toJson.Legible
  | .bool b, _ => .bool b
  | .number x, h => h x List.mem_cons_self
  | .text s, _ => .string s
  | .array items, h => .array (legible_toJsonAll items h)

theorem legible_toJsonAll : ∀ vs : List Value, (∀ x ∈ numbersAll vs, Json.Legible (.float x)) →
    ∀ j ∈ toJsonAll vs, j.Legible
  | [], _ => nofun
  | v :: vs, h => by
    have hparts := List.forall_mem_append.1 h
    exact List.forall_mem_cons.2 ⟨legible_toJson v hparts.1, legible_toJsonAll vs hparts.2⟩

end

end Value

namespace Condition

theorem ofJson?_comparison (field : String) (op : Operator) (value : Value) :
    ofJson? (comparison field op value).toJson = some (comparison field op value) := by
  simp [toJson, ofJson?, Fields.of, requiredField, field?, List.lookup_cons, text?, nameOf?, Operator.ofText?_text,
    Value.ofJson?_toJson]

mutual

theorem ofJson?_toJson : ∀ c : Condition, ofJson? c.toJson = some c
  | comparison field op value => ofJson?_comparison field op value
  | and operands => by
    change Option.map and (ofJsonAll? (toJsonAll operands)) = _
    rw [ofJsonAll?_toJsonAll operands, Option.map_some]
  | or operands => by
    change Option.map or (ofJsonAll? (toJsonAll operands)) = _
    rw [ofJsonAll?_toJsonAll operands, Option.map_some]
  | not operand => by
    change Option.map not (ofJson? operand.toJson) = _
    rw [ofJson?_toJson operand, Option.map_some]

theorem ofJsonAll?_toJsonAll : ∀ cs : List Condition, ofJsonAll? (toJsonAll cs) = some cs
  | [] => rfl
  | c :: cs => by rw [toJsonAll, ofJsonAll?, ofJson?_toJson c, ofJsonAll?_toJsonAll cs]

end

theorem legible_junction (type : String) {items : List Json} (h : ∀ item ∈ items, item.Legible) :
    Json.Legible (.object [("type", .string type), ("operands", .array items)]) :=
  .object_of_forall ⟨.string type, .array h⟩ (by decide : ["type", "operands"].Nodup)

mutual

theorem legible_toJson : ∀ c : Condition, (∀ x ∈ c.numbers, Json.Legible (.float x)) → c.toJson.Legible
  | comparison field op value, h => by
    rw [numbers, comparisons, List.flatMap_singleton] at h
    exact .object_of_forall ⟨.string _, .string field, .string op.text, value.legible_toJson h⟩
      (by decide : ["type", "field", "operator", "value"].Nodup)
  | and operands, h => legible_junction "and" (legible_toJsonAll operands h)
  | or operands, h => legible_junction "or" (legible_toJsonAll operands h)
  | not operand, h =>
    .object_of_forall ⟨.string _, legible_toJson operand h⟩ (by decide : ["type", "operand"].Nodup)

theorem legible_toJsonAll : ∀ cs : List Condition,
    (∀ x ∈ (comparisonsAll cs).flatMap (·.2.2.numbers), Json.Legible (.float x)) →
    ∀ j ∈ toJsonAll cs, j.Legible
  | [], _ => nofun
  | c :: cs, h => by
    rw [comparisonsAll, List.flatMap_append] at h
    have hparts := List.forall_mem_append.1 h
    exact List.forall_mem_cons.2 ⟨legible_toJson c hparts.1, legible_toJsonAll cs hparts.2⟩

end

end Condition

namespace Statement

/-- Whether the numbers of a statement are unsigned 64-bit words. -/
def FitsWords : Statement → Prop
  | access _ r => r.line < 2 ^ (64 : Nat)
  | limit r => r.count < 2 ^ (64 : Nat) ∧ r.period < 2 ^ (64 : Nat) ∧ r.line < 2 ^ (64 : Nat)

instance (s : Statement) : Decidable s.FitsWords :=
  match s with
  | access _ r => inferInstanceAs (Decidable (r.line < _))
  | limit r => inferInstanceAs (Decidable (r.count < _ ∧ r.period < _ ∧ r.line < _))

section Fields

variable {fields : List (String × Json)}

theorem word64?_int {n : Nat} (h : n < 2 ^ (64 : Nat)) : word64? (.int n) = some n := by
  rw [word64?, if_pos ⟨Int.natCast_nonneg n, by omega⟩, Int.toNat_natCast]

theorem requiredField_of_field? {α : Type} {key : String} {read : Json → Option α} {j : Json} {a : α}
    (h : field? fields key = some j) (hread : read j = some a) : requiredField fields key read = some a := by
  rw [requiredField, h, Option.bind_some, hread]

theorem severityOf?_of_field? {severity : Severity}
    (h : field? fields "severity" = some (.string severity.text)) : severityOf? fields = some severity := by
  rw [severityOf?, optionalField, h]
  exact Severity.ofText?_text severity

theorem lineOf?_of_field? {line : Nat} (h : field? fields "line" = some (.int line))
    (hline : line < 2 ^ (64 : Nat)) : lineOf? fields = some line := by
  rw [lineOf?, optionalField, h]
  exact word64?_int hline

/-- No condition is written as a null, which would stand for none. -/
theorem conditionOf?_of_field? {condition : Option Condition}
    (h : field? fields "condition" = condition.map (·.toJson)) : conditionOf? fields = some condition := by
  rw [conditionOf?, optionalField, h]
  cases condition with
  | none => rfl
  | some c =>
    have hc := congrArg (Option.map some) (Condition.ofJson?_toJson c)
    cases c <;> exact hc

theorem accessOf?_of_fields {r : AccessRule} (hline : r.line < 2 ^ (64 : Nat))
    (haction : field? fields "action" = some (.string r.action))
    (hresource : field? fields "resource" = some (.string r.resource))
    (hcondition : field? fields "condition" = r.condition.map (·.toJson))
    (hseverity : field? fields "severity" = some (.string r.severity.text))
    (hlines : field? fields "line" = some (.int r.line)) : accessOf? fields = some r := by
  have haction' : requiredField fields "action" text? = some r.action := requiredField_of_field? haction rfl
  have hresource' : requiredField fields "resource" text? = some r.resource :=
    requiredField_of_field? hresource rfl
  rw [accessOf?, haction', hresource', conditionOf?_of_field? hcondition, severityOf?_of_field? hseverity,
    lineOf?_of_field? hlines hline]
  rfl

theorem limitOf?_of_fields {r : LimitRule} (h : (limit r).FitsWords)
    (haction : field? fields "action" = some (.string r.action))
    (hcount : field? fields "count" = some (.int r.count))
    (hperiod : field? fields "period_seconds" = some (.int r.period))
    (hseverity : field? fields "severity" = some (.string r.severity.text))
    (hline : field? fields "line" = some (.int r.line)) : limitOf? fields = some r := by
  have haction' : requiredField fields "action" text? = some r.action := requiredField_of_field? haction rfl
  rw [limitOf?, haction', requiredField_of_field? hcount (word64?_int h.1),
    requiredField_of_field? hperiod (word64?_int h.2.1), severityOf?_of_field? hseverity,
    lineOf?_of_field? hline h.2.2]
  rfl

end Fields

theorem ofJson?_toJson {s : Statement} (h : s.FitsWords) : ofJson? s.toJson = some s := by
  have htype : ∀ (name : String) (more : List (String × Json)),
      requiredField (("type", .string name) :: more) "type" text? = some name := fun _ _ => rfl
  cases s with
  | access kind r =>
    have hrule : ∃ more, (access kind r).toJson = .object (("type", .string kind.text) :: more) ∧
        accessOf? (("type", .string kind.text) :: more) = some r := by
      refine ⟨_, rfl, accessOf?_of_fields h ?_ ?_ ?_ ?_ ?_⟩
      all_goals cases r.condition <;> simp [field?, List.lookup_cons]
    obtain ⟨more, hfields, hrule⟩ := hrule
    rw [hfields, ofJson?, htype]
    cases kind <;> exact congrArg (Option.map (access _)) hrule
  | limit r =>
    rw [toJson, ofJson?, htype]
    refine congrArg (Option.map limit) (limitOf?_of_fields h ?_ ?_ ?_ ?_ ?_)
    all_goals simp [field?, List.lookup_cons]

theorem legible_word {n : Nat} (h : n < 2 ^ (64 : Nat)) : Json.Legible (.int n) :=
  .int h fun hneg => absurd hneg (Int.not_lt.2 (Int.natCast_nonneg n))

theorem legible_toJson {s : Statement} (hwords : s.FitsWords)
    (hnumbers : ∀ c, s.condition = some c → ∀ x ∈ c.numbers, Json.Legible (.float x)) : s.toJson.Legible := by
  cases s with
  | access kind r =>
    have hline : Json.Legible (.int r.line) := legible_word hwords
    rw [toJson]
    cases hc : r.condition with
    | none =>
      exact .object_of_forall ⟨.string _, .string _, .string _, .string _, hline⟩
        (by decide : ["type", "action", "resource", "severity", "line"].Nodup)
    | some c =>
      have hcondition := c.legible_toJson (hnumbers c hc)
      exact .object_of_forall ⟨.string _, .string _, .string _, hcondition, .string _, hline⟩
        (by decide : ["type", "action", "resource", "condition", "severity", "line"].Nodup)
  | limit r =>
    obtain ⟨hcount, hperiod, hline⟩ := hwords
    exact .object_of_forall
      ⟨.string _, .string _, legible_word hcount, legible_word hperiod, .string _, legible_word hline⟩
      (by decide : ["type", "action", "count", "period_seconds", "severity", "line"].Nodup)

theorem mapM_ofJson?_toJson {ss : List Statement} (h : ∀ s ∈ ss, s.FitsWords) :
    (ss.map (·.toJson)).mapM ofJson? = some ss := by
  induction ss with
  | nil => rfl
  | cons s ss ih =>
    rw [List.forall_mem_cons] at h
    rw [List.map_cons, List.mapM_cons, ofJson?_toJson h.1, ih h.2]
    rfl

end Statement

namespace Document

section

variable [Matchers]

def numbers (d : Document) : List Binary64 := d.statements.flatMap fun s => s.condition.toList.flatMap (·.numbers)

theorem ofJson_toJson {d : Document} (h : ∀ s ∈ d.statements, s.FitsWords) : ofJson d.toJson = .ok d := by
  have hstatements : field? [("statements", Json.array (d.statements.map (·.toJson)))] "statements" =
      some (.array (d.statements.map (·.toJson))) := rfl
  rw [toJson, ofJson, hstatements]
  dsimp only
  rw [Statement.mapM_ofJson?_toJson h]
  dsimp only
  rw [ofStatements_statements]
  rfl

theorem legible_toJson {d : Document} (hwords : ∀ s ∈ d.statements, s.FitsWords)
    (hnumbers : ∀ x ∈ d.numbers, Json.Legible (.float x)) : d.toJson.Legible := by
  have hstatement : ∀ j ∈ d.statements.map (·.toJson), j.Legible := by
    intro j hj
    obtain ⟨s, hs, rfl⟩ := List.mem_map.1 hj
    refine Statement.legible_toJson (hwords s hs) fun c hc x hx => hnumbers x ?_
    rw [numbers, List.mem_flatMap]
    refine ⟨s, hs, ?_⟩
    rw [hc, Option.toList_some, List.flatMap_singleton]
    exact hx
  exact .object_of_forall (.array hstatement) (by decide : ["statements"].Nodup)

/-- A document is read back from its JSON text with all of its statements, in order, if its whole numbers are words
and the texts of its other numbers, which are finite, are read as these numbers. -/
theorem json_round_trip (d : Document) (hwords : ∀ s ∈ d.statements, s.FitsWords)
    (hfinite : ∀ x ∈ d.numbers, x.IsFinite)
    (hread : ∀ x ∈ d.numbers, readNumberText (numberText x) = some (.float x, [])) :
    ofText? d.toJson.write = some d.toJson ∧ ofJson d.toJson = .ok d := by
  have hlegible : d.toJson.Legible := by
    refine legible_toJson hwords fun x hx => .float ?_
    rw [floatText, if_pos (hfinite x hx)]
    exact hread x hx
  exact ⟨ofText?_write hlegible, ofJson_toJson hwords⟩

end

def scoredRules : Document where
  statements := [
    .access .deny ⟨"file.write", "/reports/**", some (.or [.comparison "score" .less (.number (.ofRatio true 1 8)),
      .comparison "region" .noneOf (.array [.text "north", .number (.ofNat 12)])]), .low, 3⟩,
    .limit ⟨"api.call", 18446744073709551615, 3600, .critical, 7⟩]
  wellFormed := by decide +kernel

theorem json_round_trip_scoredRules : (∀ s ∈ scoredRules.statements, s.FitsWords) ∧
    (∀ x ∈ scoredRules.numbers, x.IsFinite) ∧
    (∀ x ∈ scoredRules.numbers, readNumberText (numberText x) = some (.float x, [])) ∧
    ofText? scoredRules.toJson.write = some scoredRules.toJson ∧ ofJson scoredRules.toJson = .ok scoredRules := by
  have hwords : ∀ s ∈ scoredRules.statements, s.FitsWords := by decide +kernel
  have hfinite : ∀ x ∈ scoredRules.numbers, x.IsFinite := by decide +kernel
  have hread : ∀ x ∈ scoredRules.numbers, readNumberText (numberText x) = some (.float x, []) := by decide +kernel
  exact ⟨hwords, hfinite, hread, json_round_trip scoredRules hwords hfinite hread⟩

end Document

end Delegation
