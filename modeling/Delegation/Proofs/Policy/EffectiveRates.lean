import Delegation.Config.Matchers
import Delegation.Proofs.Policy.Grants
import Delegation.Proofs.Policy.Rates

namespace Delegation

namespace LimitRule

variable {a b c l m : LimitRule} {limits more : List LimitRule}

theorem AtMost.refl (l : LimitRule) : l.AtMost l := Nat.le_refl _

theorem tighter_eq_false_iff : a.tighter b = false ↔ b.AtMost a := by
  rw [tighter, decide_eq_false_iff_not, Nat.not_lt]
  rfl

/-- A limit keeps governing before one that is less precise, or as precise and no tighter. -/
theorem outranks_eq_false_iff : b.outranks a = false ↔
    b.specificity.order a.specificity = .lt ∨
      b.specificity.order a.specificity = .eq ∧ a.AtMost b := by
  unfold outranks
  split
  next h => simp [h]
  next h => simp [h, tighter_eq_false_iff]
  next h => simp [h]

theorem outranks_asymm (h : b.outranks a = true) : a.outranks b = false := by
  have hswap : a.specificity.order b.specificity = (b.specificity.order a.specificity).swap :=
    Std.OrientedCmp.eq_swap
  rw [outranks_eq_false_iff, hswap]
  unfold outranks at h
  split at h
  next hgt => exact .inl (congrArg Ordering.swap hgt)
  next heq => exact .inr ⟨congrArg Ordering.swap heq, Nat.le_of_lt (of_decide_eq_true h)⟩
  next => cases h

theorem not_outranks_trans (hcb : c.outranks b = false) (hba : b.outranks a = false)
    (hb : 0 < b.period) : c.outranks a = false := by
  rw [outranks_eq_false_iff] at *
  rcases hcb with hcb | ⟨hcb, hbc⟩
  · rcases hba with hba | ⟨hba, -⟩
    · exact .inl (Std.TransCmp.lt_trans hcb hba)
    · exact .inl (Std.TransCmp.lt_of_lt_of_eq hcb hba)
  · rcases hba with hba | ⟨hba, hab⟩
    · exact .inl (Std.TransCmp.lt_of_eq_of_lt hcb hba)
    · exact .inr ⟨Std.TransCmp.eq_trans hcb hba, hab.trans hbc hb⟩

theorem outranks_trans (hcb : c.outranks b = true) (hba : b.outranks a = true) (ha : 0 < a.period) :
    c.outranks a = true := by
  rw [← Bool.not_eq_false]
  intro hca
  rw [not_outranks_trans hca (outranks_asymm hba) ha] at hcb
  cases hcb

theorem prefer_of_outranks (h : b.outranks a = true) : prefer a b = b := if_pos h

theorem prefer_of_not_outranks (h : b.outranks a = false) : prefer a b = a :=
  if_neg (ne_true_of_eq_false h)

theorem prefer_cases (a b : LimitRule) : prefer a b = a ∨ prefer a b = b := by
  cases h : b.outranks a with
  | false => exact .inl (prefer_of_not_outranks h)
  | true => exact .inr (prefer_of_outranks h)

/-- Of two limits, preferring the looser one costs nothing just if the tighter one is at least as precise, or
both have one rate. -/
theorem atMost_prefer_iff (hba : b.AtMost a) : (prefer a b).AtMost b ↔
    b.specificity.order a.specificity ≠ .lt ∨ b.count * a.period = a.count * b.period := by
  cases hout : b.outranks a with
  | true =>
    have hnot : b.specificity.order a.specificity ≠ .lt := by
      intro hlt
      rw [outranks_eq_false_iff.2 (.inl hlt)] at hout
      cases hout
    rw [prefer_of_outranks hout]
    exact iff_of_true (AtMost.refl b) (.inl hnot)
  | false =>
    rw [prefer_of_not_outranks hout]
    rcases outranks_eq_false_iff.1 hout with hlt | ⟨heq, hab⟩
    · rw [or_iff_right (not_not_intro hlt)]
      exact ⟨fun hab => Nat.le_antisymm hba hab, fun hrate => Nat.le_of_eq hrate.symm⟩
    · have hnot : b.specificity.order a.specificity ≠ .lt := by
        rw [heq]
        decide
      exact iff_of_true hab (.inl hnot)

theorem prefer_assoc (ha : 0 < a.period) (hb : 0 < b.period) :
    prefer (prefer a b) c = prefer a (prefer b c) := by
  cases hba : b.outranks a with
  | false =>
    rw [prefer_of_not_outranks hba]
    cases hcb : c.outranks b with
    | false =>
      rw [prefer_of_not_outranks hcb, prefer_of_not_outranks hba,
        prefer_of_not_outranks (not_outranks_trans hcb hba hb)]
    | true => rw [prefer_of_outranks hcb]
  | true =>
    rw [prefer_of_outranks hba]
    cases hcb : c.outranks b with
    | false => rw [prefer_of_not_outranks hcb, prefer_of_outranks hba]
    | true => rw [prefer_of_outranks hcb, prefer_of_outranks (outranks_trans hcb hba ha)]

theorem foldl_prefer_prefer (ha : 0 < a.period) (hpos : ∀ l ∈ b :: limits, 0 < l.period) :
    limits.foldl prefer (prefer a b) = prefer a (limits.foldl prefer b) := by
  induction limits generalizing b with
  | nil => rfl
  | cons c limits ih =>
    have hb := hpos b List.mem_cons_self
    have hrest := (List.forall_mem_cons.1 hpos).2
    obtain ⟨hc, hlimits⟩ := List.forall_mem_cons.1 hrest
    have hbc : 0 < (prefer b c).period := by
      rcases prefer_cases b c with h | h
      · exact h.symm ▸ hb
      · exact h.symm ▸ hc
    rw [List.foldl_cons, List.foldl_cons, prefer_assoc ha hb]
    exact ih (List.forall_mem_cons.2 ⟨hbc, hlimits⟩)

theorem governing?_append (hpos : ∀ l ∈ limits ++ more, 0 < l.period)
    (hl : governing? limits = some l) (hm : governing? more = some m) :
    governing? (limits ++ more) = some (prefer l m) := by
  cases limits with
  | nil => cases hl
  | cons a limits =>
    cases more with
    | nil => cases hm
    | cons b more =>
      rw [governing?_cons, Option.some.injEq] at hl hm
      have hpos := List.forall_mem_append.1 hpos
      have hperiod : 0 < l.period := hl ▸ hpos.1 _ (foldl_prefer_mem a limits)
      rw [List.cons_append, governing?_cons, List.foldl_append, hl, List.foldl_cons,
        foldl_prefer_prefer hperiod hpos.2, hm]

end LimitRule

namespace Document

section

variable [Matchers] {parent child : Document} {action : String} {p c : LimitRule}

theorem governingLimit?_merge (parent child : Document) (action : String) :
    (parent.merge child).governingLimit? action = LimitRule.governing?
      (parent.limits.filter (·.describes action) ++ child.limits.filter (·.describes action)) := by
  rw [governingLimit?, limits_merge, List.filter_append]

/-- If both sides limit an action, the parent's governing limit governs in the merge too, unless the child's
outranks it. -/
theorem governingLimit?_merge_of_both (hp : parent.governingLimit? action = some p)
    (hc : child.governingLimit? action = some c) :
    (parent.merge child).governingLimit? action = some (LimitRule.prefer p c) := by
  rw [governingLimit?_merge]
  refine LimitRule.governing?_append (List.forall_mem_append.2 ⟨?_, ?_⟩) hp hc
  · intro l hl
    exact period_pos (List.mem_filter.1 hl).1
  · intro l hl
    exact period_pos (List.mem_filter.1 hl).1

theorem governingLimit?_merge_of_child (hp : parent.governingLimit? action = none) :
    (parent.merge child).governingLimit? action = child.governingLimit? action := by
  have hnone : parent.limits.filter (·.describes action) = [] := LimitRule.governing?_eq_none.1 hp
  rw [governingLimit?_merge, hnone, List.nil_append]
  rfl

theorem governingLimit?_of_excesses (hx : parent.excesses child = [])
    (hp : parent.governingLimit? action = some p) :
    ∃ c, child.governingLimit? action = some c ∧ c.AtMost p := by
  obtain ⟨hmem, hd⟩ := mem_of_governingLimit? hp
  exact (limitsWithin_of_limit (limitExcesses_eq_nil_of_excesses hx hmem) hd).governingLimit?

/-- What the parent limits, some limit of the merge governs, and at no higher rate than the parent's own
governing limit. -/
theorem merged_rate_within_parent (parent child : Document) (hx : parent.excesses child = [])
    (action : String) (h : ∃ l ∈ parent.limits, l.describes action = true) :
    ∃ g p, (parent.merge child).governingLimit? action = some g ∧
      parent.governingLimit? action = some p ∧ g.count * p.period ≤ p.count * g.period := by
  obtain ⟨p, -, -, hp⟩ := exists_governingLimit? h
  obtain ⟨c, hc, hcp⟩ := governingLimit?_of_excesses hx hp
  refine ⟨_, p, governingLimit?_merge_of_both hp hc, hp, ?_⟩
  rcases LimitRule.prefer_cases p c with hg | hg
  · exact hg.symm ▸ LimitRule.AtMost.refl p
  · exact hg.symm ▸ hcp

end

def limiting (action : String) (count period : Nat) : Statement := .limit ⟨action, count, period, .high, 1⟩

def meteredCalls : Document where
  statements := [limiting "api.*" 90 3600, limiting "api.call" 30 3600]
  wellFormed := by decide +kernel

def minutelyCalls : Document where
  statements := [limiting "api.call" 1 120, limiting "api.**" 20 3600]
  wellFormed := by decide +kernel

theorem merged_rate_within_meteredCalls :
    meteredCalls.excesses minutelyCalls = [] ∧
      (∃ l ∈ meteredCalls.limits, l.describes "api.call" = true) ∧
      ∃ g p, (meteredCalls.merge minutelyCalls).governingLimit? "api.call" = some g ∧
        meteredCalls.governingLimit? "api.call" = some p ∧
        g.count * p.period ≤ p.count * g.period := by
  have hx : meteredCalls.excesses minutelyCalls = [] := by decide +kernel
  have h : ∃ l ∈ meteredCalls.limits, l.describes "api.call" = true :=
    ⟨_, .head _, by decide +kernel⟩
  exact ⟨hx, h, merged_rate_within_parent meteredCalls minutelyCalls hx "api.call" h⟩

/-- The merge keeps to the rate of the child's own governing limit just if the parent's is not more precise,
or of the same rate. -/
theorem merged_rate_within_child_iff [Matchers] (parent child : Document) (hx : parent.excesses child = [])
    (action : String) (h : ∃ l ∈ child.limits, l.describes action = true) :
    ∃ g c, (parent.merge child).governingLimit? action = some g ∧
      child.governingLimit? action = some c ∧
      (g.count * c.period ≤ c.count * g.period ↔
        ∀ p, parent.governingLimit? action = some p →
          c.specificity.order p.specificity ≠ .lt ∨ c.count * p.period = p.count * c.period) := by
  obtain ⟨c, -, -, hc⟩ := exists_governingLimit? h
  cases hp : parent.governingLimit? action with
  | none =>
    refine ⟨c, c, (governingLimit?_merge_of_child hp).trans hc, hc, ?_⟩
    exact iff_of_true (LimitRule.AtMost.refl c) nofun
  | some p =>
    obtain ⟨c', hc', hcp⟩ := governingLimit?_of_excesses hx hp
    obtain rfl : c = c' := Option.some.inj (hc.symm.trans hc')
    refine ⟨_, c, governingLimit?_merge_of_both hp hc, hc, ?_⟩
    simp only [Option.some.injEq, forall_eq']
    exact LimitRule.atMost_prefer_iff hcp

def hundredCalls : Document where
  statements := [limiting "api.call" 100 3600]
  wellFormed := by decide +kernel

def fewUses : Document where
  statements := [limiting "api.*" 5 3600]
  wellFormed := by decide +kernel

theorem excesses_fewUses : hundredCalls.excesses fewUses = [] := by
  decide +kernel

theorem exists_limit_fewUses : ∃ l ∈ fewUses.limits, l.describes "api.call" = true :=
  ⟨_, .head _, by decide +kernel⟩

theorem merged_rate_within_fewUses_iff :
    hundredCalls.excesses fewUses = [] ∧ (∃ l ∈ fewUses.limits, l.describes "api.call" = true) ∧
      ∃ g c, (hundredCalls.merge fewUses).governingLimit? "api.call" = some g ∧
        fewUses.governingLimit? "api.call" = some c ∧
        (g.count * c.period ≤ c.count * g.period ↔
          ∀ p, hundredCalls.governingLimit? "api.call" = some p →
            c.specificity.order p.specificity ≠ .lt ∨ c.count * p.period = p.count * c.period) :=
  ⟨excesses_fewUses, exists_limit_fewUses,
    merged_rate_within_child_iff hundredCalls fewUses excesses_fewUses "api.call" exists_limit_fewUses⟩

/-- The parent's limit is the more precise one, so the child's tighter one no longer governs. -/
theorem not_merged_rate_within_child : ¬ ∀ (parent child : Document) (action : String),
    parent.excesses child = [] → (∃ l ∈ child.limits, l.describes action = true) →
    ∃ g c, (parent.merge child).governingLimit? action = some g ∧
      child.governingLimit? action = some c ∧ g.count * c.period ≤ c.count * g.period := by
  intro h
  have hg : (hundredCalls.merge fewUses).governingLimit? "api.call" =
      some ⟨"api.call", 100, 3600, .high, 1⟩ := by decide +kernel
  have hc : fewUses.governingLimit? "api.call" = some ⟨"api.*", 5, 3600, .high, 1⟩ := by
    decide +kernel
  obtain ⟨g, c, hg', hc', hle⟩ := h _ _ "api.call" excesses_fewUses exists_limit_fewUses
  cases hg.symm.trans hg'
  cases hc.symm.trans hc'
  exact absurd hle (by decide)

end Document

end Delegation
