import Delegation.Proofs.Decision.Ranking

namespace Delegation

theorem Json.text?_eq_some {j : Json} {s : String} (h : j.text? = some s) : j = .string s := by
  cases j with
  | string t => cases h; rfl
  | _ => cases h

namespace LimitRule

/-- Which of two limits governs, the first standing before the second. -/
def prefer (current limit : LimitRule) : LimitRule :=
  if limit.outranks current then limit else current

theorem governing?_cons (l : LimitRule) (limits : List LimitRule) :
    governing? (l :: limits) = some (limits.foldl prefer l) := by
  rw [governing?, List.foldl_cons]
  induction limits generalizing l with
  | nil => rfl
  | cons l' limits ih =>
    have hstep := ih (prefer l l')
    rw [prefer, apply_ite some] at hstep
    exact hstep

theorem governing?_eq_none {limits : List LimitRule} : governing? limits = none ↔ limits = [] := by
  cases limits with
  | nil => exact ⟨fun _ => rfl, fun _ => rfl⟩
  | cons l limits =>
    rw [governing?_cons]
    exact ⟨nofun, nofun⟩

theorem foldl_prefer_mem (l : LimitRule) (limits : List LimitRule) :
    limits.foldl prefer l ∈ l :: limits := by
  induction limits generalizing l with
  | nil => exact List.mem_cons_self
  | cons l' limits ih =>
    have hmem := ih (prefer l l')
    rcases List.mem_cons.1 hmem with heq | hmem
    · rw [List.foldl_cons, heq, prefer]
      split
      · exact List.mem_cons_of_mem _ List.mem_cons_self
      · exact List.mem_cons_self
    · exact List.mem_cons_of_mem _ (List.mem_cons_of_mem _ hmem)

theorem mem_of_governing? {l : LimitRule} {limits : List LimitRule} (h : governing? limits = some l) :
    l ∈ limits := by
  cases limits with
  | nil => cases h
  | cons l' limits =>
    rw [governing?_cons, Option.some.injEq] at h
    exact h ▸ foldl_prefer_mem l' limits

theorem bearing_eq_exceeded {l : LimitRule} {options : EvaluateOptions} {context : Context}
    {used : Binary64} : l.bearing options context = .exceeded used ↔
      (context.resolve options.limitCountKey).bind (·.number?) = some used ∧
        used.less (Binary64.ofNat l.count) = false := by
  unfold bearing
  split
  · next u hu =>
    rw [hu]
    simp only [Binary64.atMost, Binary64.less, decide_eq_true_eq, decide_eq_false_iff_not, Int.not_lt,
      Option.some.injEq]
    split
    · next hle =>
      rw [Bearing.exceeded.injEq]
      exact ⟨fun h => ⟨h, h ▸ hle⟩, And.left⟩
    · next hle =>
      constructor
      · nofun
      · rintro ⟨rfl, hle'⟩
        exact absurd hle' hle
  · next hu =>
    rw [hu]
    constructor
    · nofun
    · nofun

theorem bearing_cases (l : LimitRule) (options : EvaluateOptions) (context : Context) :
    (∃ used, l.bearing options context = .exceeded used) ∨ l.bearing options context = .within := by
  unfold bearing
  split
  · split
    · exact .inl ⟨_, rfl⟩
    · exact .inr rfl
  · exact .inr rfl

theorem bearing_ne_permitted (l : LimitRule) {options : EvaluateOptions} {context : Context} :
    l.bearing options context ≠ .permitted := by
  rcases l.bearing_cases options context with ⟨used, h⟩ | h
  · rw [h]; nofun
  · rw [h]; nofun

end LimitRule

variable [Matchers]

theorem AccessRule.isMet_iff {r : AccessRule} {options : EvaluateOptions} {context : Context} :
    r.isMet options context = true ↔ ∃ items performed,
      context.resolve options.obligationsKey = some (.array items) ∧ .string performed ∈ items ∧
        PatternKind.action.describes r.action performed = true := by
  unfold isMet
  split
  · next items hres =>
    rw [List.any_eq_true, hres]
    constructor
    · rintro ⟨item, hi, hd⟩
      obtain ⟨performed, ht, hd⟩ := (Option.any_eq_true ..).1 hd
      exact ⟨items, performed, rfl, Json.text?_eq_some ht ▸ hi, hd⟩
    · rintro ⟨items', performed, he, hi, hd⟩
      cases he
      exact ⟨_, hi, hd⟩
  · next hres =>
    constructor
    · nofun
    · rintro ⟨items, performed, he, -, -⟩
      exact absurd he (hres items)

namespace Document

variable {d : Document} {options : EvaluateOptions} {request : Request}

theorem governingLimit?_eq_none {action : String} :
    d.governingLimit? action = none ↔ ∀ l ∈ d.limits, l.describes action = false := by
  rw [governingLimit?, LimitRule.governing?_eq_none, List.filter_eq_nil_iff]
  exact forall₂_congr fun _ _ => Bool.not_eq_true _ ▸ Iff.rfl

theorem mem_of_governingLimit? {action : String} {l : LimitRule} (h : d.governingLimit? action = some l) :
    l ∈ d.limits ∧ l.describes action = true :=
  List.mem_filter.1 (LimitRule.mem_of_governing? h)

theorem exists_getElem?_of_mem_limits {l : LimitRule} (h : l ∈ d.limits) :
    ∃ i : Nat, d.statements[i]? = some (.limit l) := by
  obtain ⟨s, hs, hlimit⟩ := List.mem_filterMap.1 h
  obtain ⟨i, hi⟩ := List.mem_iff_getElem?.1 hs
  rw [Statement.limit_of_limit? hlimit]
  exact ⟨i, hi⟩

theorem exists_permitted_iff : (∃ m ∈ d.ranked options request, m.bearing = .permitted) ↔
    ∃ r ∈ d.rules .permit, r.applies request = true := by
  constructor
  · rintro ⟨m, hm, hb⟩
    rcases mem_ranked.1 hm with ⟨kind, r, hr, ha, rfl⟩ | ⟨l, -, rfl⟩
    · cases kind with
      | permit => exact ⟨r, hr, ha⟩
      | deny => cases hb
      | require =>
        simp only [bearing] at hb
        split at hb <;> cases hb
    · exact absurd hb l.bearing_ne_permitted
  · rintro ⟨r, hr, ha⟩
    exact ⟨_, mem_ranked.2 (.inl ⟨_, r, hr, ha, rfl⟩), rfl⟩

/-- Nothing goes before permits if no denial applies, every obligation that applies is met, and the
governing limit is not exceeded. -/
theorem forall_level_iff : (∀ m ∈ d.ranked options request, 3 ≤ m.bearing.level) ↔
    (∀ r ∈ d.rules .deny, r.applies request = false) ∧
    (∀ r ∈ d.rules .require, r.applies request = true → r.isMet options request.context = true) ∧
    ∀ l, d.governingLimit? request.action = some l →
      ∀ used, l.bearing options request.context ≠ .exceeded used := by
  constructor
  · intro h
    refine ⟨?_, ?_, ?_⟩
    · intro r hr
      rw [← Bool.not_eq_true]
      intro ha
      have hle := h _ (mem_ranked.2 (.inl ⟨.deny, r, hr, ha, rfl⟩))
      exact absurd hle (Nat.not_succ_le_zero 2)
    · intro r hr ha
      have hle := h _ (mem_ranked.2 (.inl ⟨.require, r, hr, ha, rfl⟩))
      rw [← Bool.not_eq_false]
      intro hm
      simp [bearing, hm, Bearing.level] at hle
    · intro l hl used hb
      have hle := h _ (mem_ranked.2 (.inr ⟨l, hl, rfl⟩))
      simp [hb, Bearing.level] at hle
  · rintro ⟨hdeny, hrequire, hlimit⟩ m hm
    rcases mem_ranked.1 hm with ⟨kind, r, hr, ha, rfl⟩ | ⟨l, hl, rfl⟩
    · cases kind with
      | permit => exact Nat.le_refl 3
      | deny => exact absurd ha (ne_true_of_eq_false (hdeny r hr))
      | require => simp [bearing, hrequire r hr ha, Bearing.level]
    · rcases l.bearing_cases options request.context with ⟨used, hb⟩ | hb
      · exact absurd hb (hlimit l hl used)
      · simp [hb, Bearing.level]

theorem not_exceeded_iff : (∀ l, d.governingLimit? request.action = some l →
      ∀ used, l.bearing options request.context ≠ .exceeded used) ↔
    (∀ l ∈ d.limits, l.describes request.action = false) ∨
    (request.context.resolve options.limitCountKey).bind (·.number?) = none ∨
    ∃ l used, d.governingLimit? request.action = some l ∧
      (request.context.resolve options.limitCountKey).bind (·.number?) = some used ∧
      used.less (Binary64.ofNat l.count) = true := by
  rw [← governingLimit?_eq_none]
  cases hg : d.governingLimit? request.action with
  | none => simp
  | some l =>
    cases hu : (request.context.resolve options.limitCountKey).bind (·.number?) with
    | none => simp [LimitRule.bearing_eq_exceeded, hu]
    | some used => simp [LimitRule.bearing_eq_exceeded, hu]

/-- A request is permitted just if a permit applies to it, no denial does, every obligation that does is
met by an action the context lists, and the one governing limit, if any, is not used up. -/
theorem evaluate_permitted_iff (d : Document) (options : EvaluateOptions) (request : Request) :
    (d.evaluate options request).permitted = true ↔
      (∃ r ∈ d.rules .permit, r.applies request = true) ∧
      (∀ r ∈ d.rules .deny, r.applies request = false) ∧
      (∀ r ∈ d.rules .require, r.applies request = true → ∃ items performed,
        request.context.resolve options.obligationsKey = some (.array items) ∧
          .string performed ∈ items ∧ PatternKind.action.describes r.action performed = true) ∧
      ((∀ l ∈ d.limits, l.describes request.action = false) ∨
        (request.context.resolve options.limitCountKey).bind (·.number?) = none ∨
        ∃ l used, d.governingLimit? request.action = some l ∧
          (request.context.resolve options.limitCountKey).bind (·.number?) = some used ∧
          used.less (Binary64.ofNat l.count) = true) := by
  rw [permitted_iff_ranked, exists_permitted_iff, forall_level_iff, not_exceeded_iff]
  simp only [AccessRule.isMet_iff]

end Document

end Delegation
