import Delegation.Decision.Evaluate

namespace Delegation

instance : Std.TransCmp Specificity.order :=
  inferInstanceAs (Std.TransCmp (compareLex
    (fun a b => compareOn Specificity.wildcards b a)
    (compareLex (compareOn Specificity.actionRanks) (compareOn Specificity.resourceRanks))))

instance : Std.LawfulEqCmp Specificity.order where
  eq_of_compare {a b} h := by
    simp only [Specificity.order, Ordering.then_eq_eq, Std.LawfulEqCmp.compare_eq_iff_eq] at h
    obtain ⟨hwildcards, haction, hresource⟩ := h
    cases a
    cases b
    dsimp only at hwildcards haction hresource
    rw [hwildcards, haction, hresource]

namespace Match

/-- The comparison behind the order of matches: the level first, then the greater precision. -/
def order (m n : Match) : Ordering :=
  (compare m.bearing.level n.bearing.level).then (n.specificity.order m.specificity)

instance : Std.TransCmp (fun m n : Match => n.specificity.order m.specificity) where
  eq_swap := Std.OrientedCmp.eq_swap
  isLE_trans h h' := Std.TransCmp.isLE_trans h' h

instance : Std.TransCmp order :=
  inferInstanceAs (Std.TransCmp (compareLex (compareOn fun m : Match => m.bearing.level)
    (fun m n => n.specificity.order m.specificity)))

theorem precedes_eq_isLE (m n : Match) : m.precedes n = (m.order n).isLE := by
  unfold precedes order
  rcases Nat.lt_trichotomy m.bearing.level n.bearing.level with h | h | h
  · simp [h, Nat.compare_eq_lt.2 h]
  · rw [h, Nat.compare_eq_eq.2 rfl, Ordering.isLE_eq_not_beq_gt]
    simp [bne]
  · simp [Nat.compare_eq_gt.2 h, Nat.lt_asymm h, Nat.ne_of_gt h]

theorem precedes_trans (m n k : Match) (h : m.precedes n = true) (h' : n.precedes k = true) :
    m.precedes k = true := by
  rw [precedes_eq_isLE] at *
  exact Std.TransCmp.isLE_trans h h'

theorem precedes_total (m n : Match) : (m.precedes n || n.precedes m) = true := by
  have hswap : n.order m = (m.order n).swap := Std.OrientedCmp.eq_swap
  rw [precedes_eq_isLE, precedes_eq_isLE, hswap]
  cases m.order n <;> rfl

theorem level_le_of_precedes {m n : Match} (h : m.precedes n = true) :
    m.bearing.level ≤ n.bearing.level := by
  simp only [precedes, Bool.or_eq_true, Bool.and_eq_true, decide_eq_true_eq, beq_iff_eq] at h
  omega

end Match

theorem Bearing.eq_permitted_of_level {b : Bearing} (h : b.level = 3) : b = .permitted := by
  cases b with
  | permitted => rfl
  | _ => cases h

namespace Document

variable [Matchers] {d : Document} {options : EvaluateOptions} {request : Request} {m : Match}

theorem mem_rules {kind : AccessKind} {r : AccessRule} :
    r ∈ d.rules kind ↔ .access kind r ∈ d.statements := by
  rw [rules, List.mem_filterMap]
  constructor
  · rintro ⟨s, hs, hr⟩
    rw [Statement.access_of_rule? hr]
    exact hs
  · intro hs
    exact ⟨_, hs, if_pos rfl⟩

theorem ranked_pairwise (d : Document) (options : EvaluateOptions) (request : Request) :
    (d.ranked options request).Pairwise fun m n => m.precedes n = true :=
  List.pairwise_mergeSort Match.precedes_trans Match.precedes_total _

/-- On the ranked list are the access rules that apply, and the limit that governs. -/
theorem mem_ranked : m ∈ d.ranked options request ↔
    (∃ kind, ∃ r ∈ d.rules kind, r.applies request = true ∧
      m = ⟨bearing kind r options request.context, .access kind r⟩) ∨
    ∃ l, d.governingLimit? request.action = some l ∧
      m = ⟨l.bearing options request.context, .limit l⟩ := by
  rw [ranked, List.mem_mergeSort, List.mem_append, List.mem_filterMap, Option.mem_toList,
    limitMatch?, Option.map_eq_some_iff]
  refine or_congr ⟨?_, ?_⟩ (exists_congr fun l => and_congr_right fun _ => eq_comm)
  · rintro ⟨s, hs, hm⟩
    cases s with
    | limit l => cases hm
    | access kind r =>
      simp only [accessMatch?] at hm
      split at hm
      · next ha =>
        cases hm
        exact ⟨kind, r, mem_rules.2 hs, ha, rfl⟩
      · cases hm
  · rintro ⟨kind, r, hr, ha, rfl⟩
    exact ⟨_, mem_rules.1 hr, if_pos ha⟩

/-- A request is permitted if a permit is on the ranked list and nothing goes before permits. -/
theorem permitted_iff_ranked : (d.evaluate options request).permitted = true ↔
    (∃ m ∈ d.ranked options request, m.bearing = .permitted) ∧
      ∀ m ∈ d.ranked options request, 3 ≤ m.bearing.level := by
  have hsorted := ranked_pairwise d options request
  rw [evaluate]
  cases hr : d.ranked options request with
  | nil => simp
  | cons head rest =>
    rw [hr, List.pairwise_cons] at hsorted
    have hle : ∀ m ∈ head :: rest, head.bearing.level ≤ m.bearing.level := by
      intro m hm
      rcases List.mem_cons.1 hm with rfl | hm
      · exact Nat.le_refl _
      · exact Match.level_le_of_precedes (hsorted.1 m hm)
    rw [decide_eq_true_eq]
    constructor
    · intro h
      rw [h] at hle
      exact ⟨⟨head, List.mem_cons_self, h⟩, hle⟩
    · rintro ⟨⟨m, hm, hp⟩, hall⟩
      have hge := hall head List.mem_cons_self
      have hm' := hle m hm
      rw [hp] at hm'
      exact Bearing.eq_permitted_of_level (Nat.le_antisymm hm' hge)

end Document

end Delegation
