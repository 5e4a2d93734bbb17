import Delegation.Config.Matchers
import Delegation.Decision.RateWindow
import Delegation.Proofs.Decision.Matches
import Delegation.Proofs.Number.Order
import Delegation.Proofs.Policy.Rates

namespace Delegation

namespace LimitRule

variable {l : LimitRule} {options : EvaluateOptions} {context : Context} {n : Nat}

/-- A whole number of uses exceeds a limit from the limit's count on, and where it is rounded like that count. -/
theorem exists_exceeded_iff (hused : context.resolve options.limitCountKey = some (.int n)) :
    (∃ used, l.bearing options context = .exceeded used) ↔
      l.count ≤ n ∨ Binary64.ofNat l.count = Binary64.ofNat n := by
  have hnumber : (context.resolve options.limitCountKey).bind (·.number?) = some (Binary64.ofNat n) := by
    rw [hused, ← Binary64.ofInt_natCast]
    rfl
  rw [← Binary64.ofNat_atMost_iff, bearing, hnumber]
  dsimp only
  split
  next h => exact iff_of_true ⟨_, rfl⟩ h
  next h =>
    refine iff_of_false ?_ h
    rintro ⟨used, hexceeded⟩
    cases hexceeded

theorem used_self (hperiod : 0 < l.period) (count : Nat) (now : Instant) : l.used count now now = count := by
  have hsince : Instant.secondsSince now now = 0 := by
    rw [Instant.secondsSince, Instant.elapsed_self, Int.zero_tdiv]
  rw [used, hsince]
  exact if_neg (Int.not_le.2 (Int.natCast_pos.2 hperiod))

end LimitRule

namespace Document

section

variable [Matchers] {d : Document} {options : EvaluateOptions} {request : Request} {action : String} {l : LimitRule}

theorem limits_matched (d : Document) (options : EvaluateOptions) (request : Request) :
    (d.evaluate options request).matched.filterMap (·.limit?) =
      (d.governingLimit? request.action).toList := by
  have hmatched : (d.evaluate options request).matched = (d.ranked options request).map (·.statement) := by
    rw [evaluate]
    cases d.ranked options request with
    | nil => rfl
    | cons head rest => rfl
  rw [hmatched, ranked_eq_map, List.map_map, List.filterMap_map]
  exact d.limits_placed options request

theorem mem_ranked_limit {bearing : Bearing} : ⟨bearing, .limit l⟩ ∈ d.ranked options request ↔
    d.governingLimit? request.action = some l ∧ bearing = l.bearing options request.context := by
  rw [mem_ranked]
  constructor
  · rintro (⟨kind, r, -, -, h⟩ | ⟨l', hl', h⟩)
    · cases h
    · cases h
      exact ⟨hl', rfl⟩
  · rintro ⟨hl, rfl⟩
    exact .inr ⟨l, hl, rfl⟩

theorem exists_exceeded_mem_iff {n : Nat} (hl : d.governingLimit? request.action = some l)
    (hused : request.context.resolve options.limitCountKey = some (.int n)) :
    (∃ used, ⟨.exceeded used, .limit l⟩ ∈ d.ranked options request) ↔
      l.count ≤ n ∨ Binary64.ofNat n = Binary64.ofNat l.count := by
  rw [eq_comm (a := Binary64.ofNat n), ← LimitRule.exists_exceeded_iff hused]
  refine exists_congr fun used => ?_
  rw [mem_ranked_limit, and_iff_right hl, eq_comm]

theorem limit_checkRate (d : Document) (action : String) (count : Nat) (start now : Instant) :
    (d.checkRate action count start now).limit = d.governingLimit? action := by
  unfold checkRate
  cases d.governingLimit? action with
  | none => rfl
  | some l => rfl

theorem exceeded_checkRate (hl : d.governingLimit? action = some l) (count : Nat) (now : Instant) :
    (d.checkRate action count now now).exceeded = true ↔ l.count ≤ count := by
  have hperiod := period_pos (mem_of_governingLimit? hl).1
  simp only [checkRate, hl, LimitRule.used_self hperiod, decide_eq_true_iff]

/-- A decision lists the limit that a rate check with the same count reports, and no other. It takes the limit
for exceeded just as the check does, unless the count is below the limit's and rounded to the same value. -/
theorem checkRate_agrees_iff (d : Document) (options : EvaluateOptions) (request : Request) (n : Nat)
    (now : Instant) (hused : request.context.resolve options.limitCountKey = some (.int n)) :
    (d.evaluate options request).matched.filterMap (·.limit?) =
        (d.checkRate request.action n now now).limit.toList ∧
      ∀ l, (d.checkRate request.action n now now).limit = some l →
        (((∃ used, ⟨.exceeded used, .limit l⟩ ∈ d.ranked options request) ↔
            (d.checkRate request.action n now now).exceeded = true) ↔
          ¬(n < l.count ∧ Binary64.ofNat n = Binary64.ofNat l.count)) := by
  rw [limit_checkRate, limits_matched]
  refine ⟨rfl, fun l hl => ?_⟩
  rw [exists_exceeded_mem_iff hl hused, exceeded_checkRate hl]
  by_cases hcount : l.count ≤ n
  · exact iff_of_true (iff_of_true (.inl hcount) hcount) fun h => absurd hcount (Nat.not_le.2 h.1)
  · rw [or_iff_right hcount, and_iff_right (Nat.not_le.1 hcount), iff_false_right hcount]

end

def countless : LimitRule := ⟨"api.call", 9007199254740996, 3600, .high, 1⟩

def countlessCalls : Document where
  statements := [.limit countless]
  wellFormed := by decide +kernel

def callAfter (n : Nat) : Request := ⟨"api.call", "/svc", ⟨[("_limit_count", .int n)]⟩⟩

/-- Two below the limit's count, which is the next value but one that binary64 holds. -/
theorem checkRate_agrees_iff_countlessCalls :
    let request := callAfter 9007199254740994
    let check := countlessCalls.checkRate "api.call" 9007199254740994 (.mk 0 0 0) (.mk 0 0 0)
    request.context.resolve "_limit_count" = some (.int 9007199254740994) ∧
      (countlessCalls.evaluate {} request).matched.filterMap (·.limit?) = check.limit.toList ∧
      check.limit = some countless ∧
      ((∃ used, ⟨.exceeded used, .limit countless⟩ ∈ countlessCalls.ranked {} request) ↔
        check.exceeded = true) := by
  intro request check
  have hused : request.context.resolve "_limit_count" = some (.int 9007199254740994) := rfl
  obtain ⟨hlimits, hagrees⟩ := checkRate_agrees_iff countlessCalls {} request 9007199254740994 (.mk 0 0 0)
    hused
  have hcheck : check.limit = some countless := by decide +kernel
  exact ⟨hused, hlimits, hcheck, (hagrees countless hcheck).2 (by decide +kernel)⟩

theorem not_checkRate_agrees : ¬ ∀ (d : Document) (options : EvaluateOptions) (request : Request) (n : Nat)
    (now : Instant), n < 2 ^ 64 → request.context.resolve options.limitCountKey = some (.int n) →
      (d.evaluate options request).matched.filterMap (·.limit?) =
          (d.checkRate request.action n now now).limit.toList ∧
        ∀ l, (d.checkRate request.action n now now).limit = some l →
          ((∃ used, ⟨.exceeded used, .limit l⟩ ∈ d.ranked options request) ↔
            (d.checkRate request.action n now now).exceeded = true) := by
  intro hall
  have hused : (callAfter 9007199254740995).context.resolve "_limit_count" =
      some (.int 9007199254740995) := rfl
  have hgoverns : countlessCalls.governingLimit? (callAfter 9007199254740995).action = some countless := by
    decide +kernel
  have hcheck := (limit_checkRate countlessCalls (callAfter 9007199254740995).action 9007199254740995
    (.mk 0 0 0) (.mk 0 0 0)).trans hgoverns
  have hagrees := (hall countlessCalls {} (callAfter 9007199254740995) _ (.mk 0 0 0) (by decide) hused).2 _ hcheck
  have hexceeded := hagrees.1 ((exists_exceeded_mem_iff hgoverns hused).2 (.inr (by decide +kernel)))
  exact absurd hexceeded (by decide +kernel)

end Document

end Delegation
