import Delegation.Config.Matchers
import Delegation.Decision.RateWindow
import Delegation.Proofs.Policy.Rates

namespace Delegation

namespace Instant

variable {start now : Instant} {seconds : Nat}

/-- The instant some seconds after another one, at least one. After a leap second they are counted from the second
before it. -/
def plus (t : Instant) (seconds : Nat) : Instant where
  minute := t.minute + (min t.second 59 + seconds) / 60
  second := (min t.second 59 + seconds) % 60
  nanosecond := t.nanosecond
  second_le := Nat.le_of_lt (Nat.mod_lt _ (by decide))
  nanosecond_lt := t.nanosecond_lt

theorem not_isLeap_plus (t : Instant) (seconds : Nat) : ¬(t.plus seconds).IsLeap :=
  Nat.ne_of_lt (Nat.mod_lt _ (by decide))

theorem second_lt (h : ¬now.IsLeap) : now.second < 60 := Nat.lt_of_le_of_ne now.second_le h

theorem nanoseconds_plus (h : ¬start.IsLeap) :
    (start.plus seconds).nanoseconds = start.nanoseconds + seconds * perSecond := by
  have hsecond := second_lt h
  simp only [nanoseconds, plus, perSecond]
  omega

/-- But for leap seconds the order of instants is that of the nanoseconds. -/
theorem le_iff (hs : ¬start.IsLeap) (hn : ¬now.IsLeap) : start ≤ now ↔ start.nanoseconds ≤ now.nanoseconds := by
  have hsecond := second_lt hs
  have hsecond' := second_lt hn
  have hnano := start.nanosecond_lt
  have hnano' := now.nanosecond_lt
  change start.minute < now.minute ∨ start.minute = now.minute ∧ (start.second < now.second ∨
    start.second = now.second ∧ start.nanosecond ≤ now.nanosecond) ↔ _
  simp only [nanoseconds, perSecond]
  omega

theorem elapsed_of_not_leap (hs : ¬start.IsLeap) (hn : ¬now.IsLeap) :
    start.elapsed now = now.nanoseconds - start.nanoseconds := by
  rw [elapsed, if_neg fun h => hs h.1, if_neg fun h => hn h.1, Int.add_zero, Int.sub_zero]

/-- Cutting elapsed time to whole seconds hides no second that has passed, and in the last second before the
start it shows none but the zeroth. -/
theorem le_secondsSince_iff (h : 0 < seconds) :
    (seconds : Int) ≤ secondsSince start now ↔ seconds * perSecond ≤ start.elapsed now := by
  rw [secondsSince]
  have hpos : (0 : Int) < seconds := Int.natCast_pos.2 h
  have hsecond : (0 : Int) < perSecond := by decide
  rcases Int.le_total 0 (start.elapsed now) with helapsed | helapsed
  · rw [Int.tdiv_eq_ediv_of_nonneg helapsed, Int.le_ediv_iff_mul_le hsecond]
  · have hcut : (start.elapsed now).tdiv perSecond ≤ 0 := by
      rw [← Int.neg_neg (start.elapsed now), Int.neg_tdiv]
      exact Int.neg_nonpos_of_nonneg (Int.tdiv_nonneg (by omega) (Int.le_of_lt hsecond))
    have hproduct : 0 < seconds * perSecond := Int.mul_pos hpos hsecond
    exact iff_of_false (by omega) (by omega)

theorem plus_le_iff (hs : ¬start.IsLeap) (hn : ¬now.IsLeap) :
    start.plus seconds ≤ now ↔ seconds * perSecond ≤ start.elapsed now := by
  rw [le_iff (not_isLeap_plus start seconds) hn, nanoseconds_plus hs, elapsed_of_not_leap hs hn,
    Int.add_comm, Int.add_le_iff_le_sub]

theorem elapsed_mono {now' : Instant} (hs : ¬start.IsLeap) (hn : ¬now.IsLeap) (hn' : ¬now'.IsLeap)
    (h : now ≤ now') : start.elapsed now ≤ start.elapsed now' := by
  rw [elapsed_of_not_leap hs hn, elapsed_of_not_leap hs hn']
  exact Int.sub_le_sub_right ((le_iff hn hn').1 h) _

end Instant

namespace LimitRule

variable {l : LimitRule} {count count' : Nat} {start now now' : Instant}

theorem used_eq (h : 0 < l.period) : l.used count start now =
    if l.period * Instant.perSecond ≤ start.elapsed now then 0 else count := by
  simp only [used, Instant.le_secondsSince_iff h]

theorem used_mono (h : 0 < l.period) (hcount : count' ≤ count)
    (hnow : start.elapsed now ≤ start.elapsed now') :
    l.used count' start now' ≤ l.used count start now := by
  rw [used_eq h, used_eq h]
  split
  next => exact Nat.zero_le _
  next hopen =>
    rw [if_neg fun hover => hopen (Int.le_trans hover hnow)]
    exact hcount

end LimitRule

namespace Document

section

variable [Matchers] {d : Document} {action : String} {l : LimitRule} {count count' : Nat} {start now now' : Instant}

theorem checkRate_eq (hl : d.governingLimit? action = some l) (count : Nat) (start now : Instant) :
    d.checkRate action count start now = ⟨decide (l.count ≤ l.used count start now),
      some (l.count - l.used count start now), some l⟩ := by
  rw [checkRate, hl]

theorem exceeded_eq_false (hl : d.governingLimit? action = some l) :
    (d.checkRate action count start now).exceeded = false ↔ l.used count start now < l.count := by
  rw [checkRate_eq hl, decide_eq_false_iff_not, Nat.not_le]

theorem not_exceeded_mono (hl : d.governingLimit? action = some l) (hcount : count' ≤ count)
    (hnow : start.elapsed now ≤ start.elapsed now')
    (h : (d.checkRate action count start now).exceeded = false) :
    (d.checkRate action count' start now').exceeded = false := by
  have hperiod := period_pos (mem_of_governingLimit? hl).1
  rw [exceeded_eq_false hl] at h ⊢
  exact Nat.lt_of_le_of_lt (LimitRule.used_mono hperiod hcount hnow) h

/-- A rate check counts all uses until a full period has passed, to the nanosecond, and none from then on; outside
leap seconds this is before the instant at which the period ends. The limit is exceeded just if the uses reach its
count, and just if nothing remains; else what remains and what is used make up the count. It stays so with fewer
uses, and outside leap seconds at a later time. -/
theorem checkRate_window (d : Document) (action : String) (l : LimitRule)
    (hl : d.governingLimit? action = some l) (count : Nat) (start now : Instant) :
    let status := d.checkRate action count start now
    let used := l.used count start now
    (used = if l.period * Instant.perSecond ≤ start.elapsed now then 0 else count) ∧
      (¬start.IsLeap → ¬now.IsLeap → used = if start.plus l.period ≤ now then 0 else count) ∧
      status.limit = some l ∧ (status.exceeded = true ↔ l.count ≤ used) ∧
      (status.exceeded = true ↔ status.remaining = some 0) ∧
      (status.exceeded = false → ∃ left, status.remaining = some left ∧ left + used = l.count) ∧
      (status.exceeded = false → ∀ count', count' ≤ count →
        (d.checkRate action count' start now).exceeded = false ∧
        ∀ now', ¬start.IsLeap → ¬now.IsLeap → ¬now'.IsLeap → now ≤ now' →
          (d.checkRate action count' start now').exceeded = false) := by
  intro status used
  have hused : used = if l.period * Instant.perSecond ≤ start.elapsed now then 0 else count :=
    LimitRule.used_eq (period_pos (mem_of_governingLimit? hl).1)
  have hstatus : status = ⟨decide (l.count ≤ used), some (l.count - used), some l⟩ :=
    checkRate_eq hl count start now
  have hexceeded : status.exceeded = true ↔ l.count ≤ used := by rw [hstatus, decide_eq_true_iff]
  have hremaining : status.remaining = some (l.count - used) := by rw [hstatus]
  refine ⟨hused, ?_, by rw [hstatus], hexceeded, ?_, ?_, ?_⟩
  · intro hs hn
    simp only [hused, Instant.plus_le_iff hs hn]
  · rw [hexceeded, hremaining, Option.some.injEq, Nat.sub_eq_zero_iff_le]
  · intro hbelow
    have hlt : used < l.count := (exceeded_eq_false hl).1 hbelow
    exact ⟨_, hremaining, Nat.sub_add_cancel (Nat.le_of_lt hlt)⟩
  · intro hbelow count' hcount
    refine ⟨not_exceeded_mono hl hcount (Int.le_refl _) hbelow, fun now' hs hn hn' hnow => ?_⟩
    exact not_exceeded_mono hl hcount (Instant.elapsed_mono hs hn hn' hnow) hbelow

end

def threeCalls : LimitRule := ⟨"api.*", 3, 60, .high, 1⟩

def fewCalls : Document where
  statements := [.limit threeCalls]
  wellFormed := by decide +kernel

theorem checkRate_window_fewCalls : fewCalls.governingLimit? "api.call" = some threeCalls ∧
    (fewCalls.checkRate "api.call" 3 (.mk 0 0 500) (.mk 1 0 499)).remaining = some 0 ∧
    (fewCalls.checkRate "api.call" 3 (.mk 0 0 500) (.mk 1 0 500)).exceeded = false ∧
    (fewCalls.checkRate "api.call" 2 (.mk 0 0 500) (.mk 2 0 0)).exceeded = false := by
  have hl : fewCalls.governingLimit? "api.call" = some threeCalls := by decide +kernel
  obtain ⟨-, hopen, -, hreached, hnone, -⟩ :=
    checkRate_window fewCalls "api.call" threeCalls hl 3 (.mk 0 0 500) (.mk 1 0 499)
  obtain ⟨-, hover, -, hcounts, -, -, hlater⟩ :=
    checkRate_window fewCalls "api.call" threeCalls hl 3 (.mk 0 0 500) (.mk 1 0 500)
  have hbelow : (fewCalls.checkRate "api.call" 3 (.mk 0 0 500) (.mk 1 0 500)).exceeded = false := by
    rw [Bool.eq_false_iff]
    intro h
    have hused := hcounts.1 h
    rw [hover (by decide) (by decide)] at hused
    exact absurd hused (by decide)
  refine ⟨hl, hnone.1 (hreached.2 ?_), hbelow, ?_⟩
  · rw [hopen (by decide) (by decide)]
    decide
  · exact (hlater hbelow 2 (by decide)).2 (.mk 2 0 0) (by decide) (by decide) (by decide) (by decide)

def hourlyCall : LimitRule := ⟨"api.call", 1, 3600, .high, 1⟩

def minutelyList : LimitRule := ⟨"api.list", 1, 60, .high, 2⟩

def singleUses : Document where
  statements := [.limit hourlyCall, .limit minutelyList]
  wellFormed := by decide +kernel

def leapSecond : Instant := .mk 24720479 60 500000000

/-- A use made in a leap second still counts when an hour is over; a minute that ends in one is over before its
end, and then it is not. -/
theorem not_checkRate_window : singleUses.governingLimit? "api.call" = some hourlyCall ∧
    leapSecond.plus 3600 ≤ (.mk 24720540 0 0) ∧
    (singleUses.checkRate "api.call" 1 leapSecond (.mk 24720540 0 0)).exceeded = true ∧
    singleUses.governingLimit? "api.list" = some minutelyList ∧
    ¬(Instant.mk 24720479 0 300000000).plus 60 ≤ leapSecond ∧
    (singleUses.checkRate "api.list" 1 (.mk 24720479 0 300000000) leapSecond).exceeded = false ∧
    leapSecond ≤ (.mk 24720480 0 100000000) ∧
    (singleUses.checkRate "api.list" 1 (.mk 24720479 0 300000000) (.mk 24720480 0 100000000)).exceeded = true := by
  decide +kernel

end Document

end Delegation
