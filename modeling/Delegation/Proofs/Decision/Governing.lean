import Delegation.Proofs.Policy.EffectiveRates
import Mathlib.Algebra.Order.Field.Rat
import Mathlib.Data.List.Induction

namespace Delegation

namespace Specificity

variable {a b : Specificity}

theorem order_eq_iff : a.order b = .eq ↔ a = b := Std.LawfulEqCmp.compare_eq_iff_eq

theorem eq_of_order_ne_gt (hab : a.order b ≠ .gt) (hba : b.order a ≠ .gt) : a = b := by
  have hswap : b.order a = (a.order b).swap := Std.OrientedCmp.eq_swap
  rw [← order_eq_iff]
  cases horder : a.order b with
  | lt =>
    rw [hswap, horder] at hba
    exact absurd rfl hba
  | eq => rfl
  | gt => exact absurd horder hab

end Specificity

namespace LimitRule

variable {a b g l : LimitRule} {limits : List LimitRule}

/-- How many uses a second a limit allows. -/
def rate (l : LimitRule) : ℚ := l.count / l.period

theorem rate_lt_iff (ha : 0 < a.period) (hb : 0 < b.period) :
    a.rate < b.rate ↔ a.count * b.period < b.count * a.period := by
  have ha' : (0 : ℚ) < a.period := Nat.cast_pos.2 ha
  have hb' : (0 : ℚ) < b.period := Nat.cast_pos.2 hb
  rw [rate, rate, div_lt_div_iff₀ ha' hb', ← Nat.cast_mul, ← Nat.cast_mul, Nat.cast_lt]

theorem outranks_iff (ha : 0 < a.period) (hb : 0 < b.period) : a.outranks b = true ↔
    a.specificity.order b.specificity = .gt ∨ a.specificity = b.specificity ∧ a.rate < b.rate := by
  rw [rate_lt_iff ha hb, ← Specificity.order_eq_iff, outranks]
  split
  next h => simp [h]
  next h => simp [h, tighter]
  next h => simp [h]

theorem not_outranks_iff (ha : 0 < a.period) (hb : 0 < b.period) : a.outranks b = false ↔
    a.specificity.order b.specificity ≠ .gt ∧ (a.specificity = b.specificity → b.rate ≤ a.rate) := by
  rw [← Bool.not_eq_true, outranks_iff ha hb, not_or, not_and, not_lt]

theorem governing?_concat (h : governing? limits = some g) :
    governing? (limits ++ [l]) = some (prefer g l) := by
  rw [governing?, List.foldl_append, ← governing?, h]
  exact (apply_ite some _ _ _).symm

/-- The limit stands in the list, outranks all before it, and is outranked by none behind it. -/
def Heads (g : LimitRule) (limits : List LimitRule) : Prop :=
  ∃ before after, limits = before ++ g :: after ∧ (∀ l ∈ before, g.outranks l = true) ∧
    ∀ l ∈ after, l.outranks g = false

theorem Heads.concat (h : g.Heads limits) (hpos : ∀ m ∈ limits, 0 < m.period) (l : LimitRule) :
    (prefer g l).Heads (limits ++ [l]) := by
  obtain ⟨before, after, rfl, hbefore, hafter⟩ := h
  have hg : 0 < g.period := hpos g (List.mem_append_right before List.mem_cons_self)
  cases hout : l.outranks g with
  | false =>
    rw [prefer_of_not_outranks hout]
    refine ⟨before, after ++ [l], List.append_assoc .., hbefore, ?_⟩
    rw [List.forall_mem_append, List.forall_mem_singleton]
    exact ⟨hafter, hout⟩
  | true =>
    rw [prefer_of_outranks hout]
    refine ⟨before ++ g :: after, [], rfl, ?_, List.forall_mem_nil _⟩
    rw [List.forall_mem_append, List.forall_mem_cons]
    refine ⟨fun m hm => ?_, hout, fun m hm => ?_⟩
    · exact outranks_trans hout (hbefore m hm) (hpos m (List.mem_append_left _ hm))
    · -- a limit behind the head that the new one did not outrank would not be outranked by the head either
      rw [← Bool.not_eq_false]
      intro hnot
      have hm' : m ∈ before ++ g :: after := List.mem_append_right _ (List.mem_cons_of_mem g hm)
      rw [not_outranks_trans hnot (hafter m hm) (hpos m hm')] at hout
      cases hout

theorem heads_of_governing? (hpos : ∀ m ∈ limits, 0 < m.period) (h : governing? limits = some g) :
    g.Heads limits := by
  induction limits using List.reverseRecOn generalizing g with
  | nil => cases h
  | append_singleton limits l ih =>
    have hpos' := (List.forall_mem_append.1 hpos).1
    cases hlimits : governing? limits with
    | none =>
      rw [governing?_eq_none.1 hlimits] at h ⊢
      cases h
      exact ⟨[], [], rfl, List.forall_mem_nil _, List.forall_mem_nil _⟩
    | some current =>
      rw [governing?_concat hlimits, Option.some.injEq] at h
      rw [← h]
      exact (ih hpos' hlimits).concat hpos' l

end LimitRule

namespace Document

theorem mem_of_getElem?_append_cons {α : Type} {front back : List α} {a b : α}
    (h : (front ++ a :: back)[j]? = some b) :
    b ∈ front ∨ j = front.length ∧ b = a ∨ front.length < j ∧ b ∈ back := by
  rcases Nat.lt_trichotomy j front.length with hlt | rfl | hgt
  · rw [List.getElem?_append_left hlt] at h
    exact .inl (List.mem_of_getElem? h)
  · rw [List.getElem?_append_right (Nat.le_refl _), Nat.sub_self, List.getElem?_cons_zero,
      Option.some.injEq] at h
    exact .inr (.inl ⟨rfl, h.symm⟩)
  · obtain ⟨k, rfl⟩ := Nat.exists_eq_add_of_lt hgt
    rw [List.getElem?_append_right (Nat.le_of_lt hgt), Nat.add_assoc, Nat.add_sub_cancel_left,
      List.getElem?_cons_succ] at h
    exact .inr (.inr ⟨hgt, List.mem_of_getElem? h⟩)

variable [Matchers] {d : Document} {action : String} {g l m : LimitRule} {i j : Nat}

/-- A limit for an action, at a place of the document. -/
def LimitsAt (d : Document) (action : String) (l : LimitRule) (i : Nat) : Prop :=
  d.statements[i]? = some (.limit l) ∧ l.describes action = true

/-- A limit for an action such that no other one is more precise, none as precise is of a lower rate, and none
as precise and of the same rate stands before it. -/
structure Governs (d : Document) (action : String) (l : LimitRule) (i : Nat) : Prop where
  limits : d.LimitsAt action l i
  precise : ∀ m j, d.LimitsAt action m j → m.specificity.order l.specificity ≠ .gt
  tight : ∀ m j, d.LimitsAt action m j → m.specificity = l.specificity → l.rate ≤ m.rate
  first : ∀ m j, d.LimitsAt action m j → m.specificity = l.specificity → m.rate = l.rate → i ≤ j

theorem LimitsAt.mem (h : d.LimitsAt action l i) : l ∈ d.limits :=
  List.mem_filterMap.2 ⟨.limit l, List.mem_of_getElem? h.1, rfl⟩

theorem exists_limitsAt (hmem : l ∈ d.limits) (hdescribes : l.describes action = true) :
    ∃ i, d.LimitsAt action l i := by
  obtain ⟨i, hi⟩ := exists_getElem?_of_mem_limits hmem
  exact ⟨i, hi, hdescribes⟩

theorem limit?_filter_eq_some {s : Statement} :
    s.limit?.filter (·.describes action) = some l ↔ s = .limit l ∧ l.describes action = true := by
  rw [Option.filter_eq_some_iff]
  refine and_congr_left fun _ => ?_
  cases s with
  | access => exact ⟨nofun, nofun⟩
  | limit l' => rw [Statement.limit?, Option.some.injEq, Statement.limit.injEq]

/-- A limit that stands among the limits for an action has a place in the document, with the same limits before
and behind it. -/
theorem exists_place {before after : List LimitRule}
    (h : d.limits.filter (·.describes action) = before ++ g :: after) :
    ∃ i, d.LimitsAt action g i ∧ ∀ m j, d.LimitsAt action m j →
      m ∈ before ∨ j = i ∧ m = g ∨ i < j ∧ m ∈ after := by
  rw [limits, List.filter_filterMap] at h
  obtain ⟨front, rest, hstatements, rfl, hrest⟩ := List.filterMap_eq_append_iff.1 h
  obtain ⟨skipped, s, back, rfl, hskipped, hs, rfl⟩ := List.filterMap_eq_cons_iff.1 hrest
  obtain ⟨rfl, hdescribes⟩ := limit?_filter_eq_some.1 hs
  rw [← List.append_assoc] at hstatements
  refine ⟨(front ++ skipped).length, ⟨?_, hdescribes⟩, ?_⟩
  · rw [hstatements, List.getElem?_append_right (Nat.le_refl _), Nat.sub_self]
    rfl
  · rintro m j ⟨hplace, hm⟩
    have hfor := limit?_filter_eq_some.2 ⟨rfl, hm⟩
    rw [hstatements] at hplace
    rcases mem_of_getElem?_append_cons hplace with hlead | ⟨hj, heq⟩ | ⟨hj, hback⟩
    · rcases List.mem_append.1 hlead with hfront | hskip
      · exact .inl (List.mem_filterMap.2 ⟨_, hfront, hfor⟩)
      · rw [hskipped _ hskip] at hfor
        cases hfor
    · exact .inr (.inl ⟨hj, Statement.limit.inj heq⟩)
    · exact .inr (.inr ⟨hj, List.mem_filterMap.2 ⟨_, hback, hfor⟩⟩)

theorem exists_governs (h : d.governingLimit? action = some g) : ∃ i, d.Governs action g i := by
  have hperiods : ∀ l ∈ d.limits.filter (·.describes action), 0 < l.period :=
    fun l hl => period_pos (List.mem_filter.1 hl).1
  obtain ⟨before, after, hlimits, hbefore, hafter⟩ := LimitRule.heads_of_governing? hperiods h
  obtain ⟨i, hi, hplaces⟩ := exists_place hlimits
  have hbest : ∀ m j, d.LimitsAt action m j → m.specificity.order g.specificity ≠ .gt ∧
      (m.specificity = g.specificity → g.rate ≤ m.rate ∧ (m.rate = g.rate → i ≤ j)) := by
    intro m j hj
    have hg := period_pos hi.mem
    have hm := period_pos hj.mem
    rcases hplaces m j hj with hmem | ⟨rfl, rfl⟩ | ⟨hlt, hmem⟩
    · obtain ⟨horder, -⟩ := (LimitRule.not_outranks_iff hm hg).1 (LimitRule.outranks_asymm (hbefore m hmem))
      refine ⟨horder, fun hsame => ?_⟩
      have hrate : g.rate < m.rate := by
        rcases (LimitRule.outranks_iff hg hm).1 (hbefore m hmem) with hgt | ⟨-, hlt⟩
        · rw [Specificity.order_eq_iff.2 hsame.symm] at hgt
          cases hgt
        · exact hlt
      exact ⟨hrate.le, fun heq => absurd heq hrate.ne'⟩
    · rw [Specificity.order_eq_iff.2 rfl]
      exact ⟨nofun, fun _ => ⟨le_refl _, fun _ => Nat.le_refl _⟩⟩
    · obtain ⟨horder, hrate⟩ := (LimitRule.not_outranks_iff hm hg).1 (hafter m hmem)
      exact ⟨horder, fun hsame => ⟨hrate hsame, fun _ => Nat.le_of_lt hlt⟩⟩
  exact ⟨i, hi, fun m j hj => (hbest m j hj).1, fun m j hj hsame => ((hbest m j hj).2 hsame).1,
    fun m j hj hsame => ((hbest m j hj).2 hsame).2⟩

theorem Governs.unique (hl : d.Governs action l i) (hm : d.Governs action m j) : l = m := by
  have hsame : m.specificity = l.specificity :=
    Specificity.eq_of_order_ne_gt (hl.precise m j hm.limits) (hm.precise l i hl.limits)
  have hrate : m.rate = l.rate :=
    le_antisymm (hm.tight l i hl.limits hsame.symm) (hl.tight m j hm.limits hsame)
  have hplace : i = j := Nat.le_antisymm (hl.first m j hm.limits hsame hrate)
    (hm.first l i hl.limits hsame.symm hrate.symm)
  have hstatement := hl.limits.1.symm.trans (hplace ▸ hm.limits.1)
  exact Statement.limit.inj (Option.some.inj hstatement)

/-- Some limit governs an action just if some limit is for it, and it is the one that is the most precise, then
of the lowest rate, then the first in the document. -/
theorem governingLimit?_optimum (d : Document) (action : String) :
    ((d.governingLimit? action).isSome ↔ ∃ l ∈ d.limits, l.describes action = true) ∧
      ∀ l, d.governingLimit? action = some l ↔ ∃ i, d.Governs action l i := by
  have hsome : (d.governingLimit? action).isSome ↔ ∃ l ∈ d.limits, l.describes action = true := by
    constructor
    · intro h
      obtain ⟨g, hg⟩ := Option.isSome_iff_exists.1 h
      exact ⟨g, mem_of_governingLimit? hg⟩
    · intro h
      obtain ⟨g, -, -, hg⟩ := exists_governingLimit? h
      rw [hg]
      rfl
  refine ⟨hsome, fun l => ⟨exists_governs, ?_⟩⟩
  rintro ⟨i, hl⟩
  obtain ⟨g, hg⟩ := Option.isSome_iff_exists.1 (hsome.2 ⟨l, hl.limits.mem, hl.limits.2⟩)
  obtain ⟨j, hj⟩ := exists_governs hg
  rw [hg, hl.unique hj]

end Document

end Delegation
