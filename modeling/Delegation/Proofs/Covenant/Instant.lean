import Delegation.Covenant.Instant
import Delegation.Proofs.Number.Text
import Delegation.Proofs.Source.Words

namespace Delegation

namespace Date

/-- The year of an era of four hundred years in which a day of the era stands. -/
def yearOfEra (dayOfEra : Int) : Int :=
  (dayOfEra - dayOfEra / 1460 + dayOfEra / 36524 - dayOfEra / 146096) / 365

def daysBefore (yearOfEra : Int) : Int := 365 * yearOfEra + yearOfEra / 4 - yearOfEra / 100

variable {d : Int}

theorem yearOfEra_bounds (h₀ : 0 ≤ d) (h₁ : d < 146097) : 0 ≤ yearOfEra d ∧ yearOfEra d < 400 := by
  unfold yearOfEra
  omega

theorem daysBefore_le (h₀ : 0 ≤ d) (h₁ : d < 146097) : daysBefore (yearOfEra d) ≤ d := by
  unfold daysBefore
  generalize hy : yearOfEra d = y
  unfold yearOfEra at hy
  obtain ⟨c, hc⟩ : ∃ c, c = d / 36524 := ⟨_, rfl⟩
  have hcentury : y / 100 = c ∨ y / 100 = c - 1 := by omega
  have hfive : c = 0 ∨ c = 1 ∨ c = 2 ∨ c = 3 ∨ c = 4 := by omega
  rcases hfive with rfl | rfl | rfl | rfl | rfl
  all_goals rcases hcentury with hcentury | hcentury <;> omega

theorem sub_daysBefore_le (h₀ : 0 ≤ d) (h₁ : d < 146097) : d - daysBefore (yearOfEra d) ≤ 366 := by
  unfold daysBefore yearOfEra
  omega

def ofMarch (year month day : Int) : Date :=
  if month < 10 then ⟨year, (month + 3).toNat, day.toNat⟩
  else ⟨year + 1, (month - 9).toNat, day.toNat⟩

theorem toDays_ofMarch {era y m k : Int} (hy : 0 ≤ y ∧ y < 400) (hm : 0 ≤ m ∧ m < 12) (hk : 0 ≤ k) :
    (ofMarch (era * 400 + y) m (k + 1)).toDays =
      era * 146097 + (daysBefore y + ((153 * m + 2) / 5 + k)) - epochShift := by
  have hera : (era * 400 + y) / 400 = era := by omega
  have hyear : (era * 400 + y) % 400 = y := by omega
  have hday : ((k + 1).toNat : Int) = k + 1 := Int.toNat_of_nonneg (by omega)
  unfold ofMarch
  split
  next hspring =>
    have hmonth : ((m + 3).toNat : Int) = m + 3 := Int.toNat_of_nonneg (by omega)
    have hlate : ¬(m + 3).toNat ≤ 2 := by omega
    simp only [toDays, if_neg hlate, hera, hyear, hday, hmonth, daysBefore]
    rw [Int.add_sub_cancel]
    omega
  next hwinter =>
    have hmonth : ((m - 9).toNat : Int) = m - 9 := Int.toNat_of_nonneg (by omega)
    have hearly : (m - 9).toNat ≤ 2 := by omega
    simp only [toDays, if_pos hearly, Int.add_sub_cancel, hera, hyear, hday, hmonth, daysBefore]
    rw [Int.sub_add_cancel]
    omega

theorem toDays_ofDays (days : Int) : (ofDays days).toDays = days := by
  obtain ⟨d, hd⟩ : ∃ d, d = (days + epochShift) % 146097 := ⟨_, rfl⟩
  have hera : 0 ≤ d ∧ d < 146097 := by omega
  obtain ⟨n, hn⟩ : ∃ n, n = d - daysBefore (yearOfEra d) := ⟨_, rfl⟩
  obtain ⟨m, hm⟩ : ∃ m, m = (5 * n + 2) / 153 := ⟨_, rfl⟩
  have hbefore := daysBefore_le hera.1 hera.2
  have hafter := sub_daysBefore_le hera.1 hera.2
  have hdate : ofDays days =
      ofMarch ((days + epochShift) / 146097 * 400 + yearOfEra d) m (n - (153 * m + 2) / 5 + 1) := by
    rw [hm, hn, hd]
    rfl
  rw [hdate, toDays_ofMarch (yearOfEra_bounds hera.1 hera.2) (by omega) (by omega)]
  omega

end Date

namespace Instant

/-- No digit stands at the head of what follows a number. -/
def EndsDigits (rest : List Char) : Prop := ∀ c, rest.head? = some c → c.isDigit = false

variable {width width' n n' : Nat} {r r' : List Char}

theorem endsDigits_cons {c : Char} (h : c.isDigit = false) : EndsDigits (c :: r) := by
  intro d hd
  cases hd
  exact h

theorem isDigit_padded : ∀ c ∈ padded width n, c.isDigit = true := by
  intro c hc
  rcases List.mem_append.1 hc with hc | hc
  · exact Decimal.isDigit_of_mem_zeros hc
  · exact Nat.isDigit_of_mem_toDigits (by decide) (by decide) hc

theorem digitsValue_padded : digitsValue (padded width n) = n := by
  rw [padded, digitsValue_zeros_append, digitsValue_toDigits]

theorem length_padded (hwidth : 0 < width) (h : n < 10 ^ width) : (padded width n).length = width := by
  have hle := (Nat.length_toDigits_le_iff (by decide) hwidth).2 h
  rw [padded, List.length_append, List.length_replicate]
  omega

theorem takeWhile_padded (hr : EndsDigits r) :
    (padded width n ++ r).takeWhile Char.isDigit = padded width n :=
  Lexer.takeWhile_append_of_head isDigit_padded hr

theorem padded_append_inj (hr : EndsDigits r) (hr' : EndsDigits r')
    (h : padded width n ++ r = padded width' n' ++ r') : n = n' ∧ r = r' := by
  have hdigits := congrArg (List.takeWhile Char.isDigit) h
  rw [takeWhile_padded hr, takeWhile_padded hr'] at hdigits
  rw [hdigits] at h
  have hvalue := congrArg digitsValue hdigits
  rw [digitsValue_padded, digitsValue_padded] at hvalue
  exact ⟨hvalue, List.append_cancel_left h⟩

def yearSign (year : Int) : List Char :=
  if 0 ≤ year ∧ year ≤ 9999 then [] else if year < 0 then ['-'] else ['+']

theorem yearText_eq (year : Int) : yearText year = yearSign year ++ padded 4 year.natAbs := by
  unfold yearText yearSign
  split
  next h =>
    rw [show year.toNat = year.natAbs by omega]
    rfl
  next =>
    split <;> rfl

theorem yearSign_eq_minus {year : Int} : yearSign year = ['-'] ↔ year < 0 := by
  unfold yearSign
  split
  next h => exact iff_of_false nofun (by omega)
  next =>
    split
    next h => exact iff_of_true rfl h
    next h => exact iff_of_false (by decide) h

theorem takeWhile_yearText (year : Int) (rest : List Char) :
    (yearText year ++ rest).takeWhile (!·.isDigit) = yearSign year := by
  rw [yearText_eq, List.append_assoc]
  apply Lexer.takeWhile_append_of_head
  · intro c hc
    unfold yearSign at hc
    split at hc
    · cases hc
    · split at hc
      all_goals
        rw [List.mem_singleton.1 hc]
        decide
  · intro c hc
    cases hdigits : padded 4 year.natAbs with
    | nil =>
      have hne : padded 4 year.natAbs ≠ [] := List.append_ne_nil_of_right_ne_nil _ Nat.toDigits_ne_nil
      exact absurd hdigits hne
    | cons d ds =>
      rw [hdigits] at hc
      cases hc
      have hdigit : c.isDigit = true := isDigit_padded c (hdigits ▸ List.mem_cons_self)
      rw [hdigit]
      rfl

theorem yearText_append_inj {year year' : Int} (hr : EndsDigits r) (hr' : EndsDigits r')
    (h : yearText year ++ r = yearText year' ++ r') : year = year' ∧ r = r' := by
  have hsign := congrArg (List.takeWhile (!·.isDigit)) h
  rw [takeWhile_yearText, takeWhile_yearText] at hsign
  rw [yearText_eq, yearText_eq, hsign, List.append_assoc, List.append_assoc] at h
  obtain ⟨habs, hrest⟩ := padded_append_inj hr hr' (List.append_cancel_left h)
  have hneg : year < 0 ↔ year' < 0 := by rw [← yearSign_eq_minus, hsign, yearSign_eq_minus]
  exact ⟨by omega, hrest⟩

/-- A text that can follow a fraction of a second. -/
def EndsFraction (zone : List Char) : Prop :=
  ∀ c, zone.head? = some c → c.isDigit = false ∧ c ≠ '.'

theorem EndsFraction.endsDigits {zone : List Char} (h : EndsFraction zone) : EndsDigits zone :=
  fun c hc => (h c hc).1

theorem readFraction_padded (hzone : EndsDigits r) (hwidth : 0 < width) (hnine : width ≤ 9)
    (h : n < 10 ^ width) :
    readFraction ('.' :: padded width n ++ r) = some (n * 10 ^ (9 - width), r) := by
  have hlength := length_padded hwidth h
  have hne : ¬(padded width n).isEmpty = true := by
    rw [List.isEmpty_iff_length_eq_zero, hlength]
    omega
  rw [List.cons_append, readFraction]
  simp only [takeWhile_padded hzone, if_neg hne, List.drop_left, billionths]
  rw [List.take_of_length_le (by omega), digitsValue_padded, hlength]

theorem readFraction_fractionText {zone : List Char} (hzone : EndsFraction zone)
    (h : n < 10 ^ 9) : readFraction (fractionText n ++ zone) = some (n, zone) := by
  unfold fractionText
  split
  next hzero =>
    rw [hzero, List.nil_append, readFraction.eq_def]
    split
    next cs => exact absurd rfl (hzone '.' rfl).2
    next => rfl
  next =>
    split
    next hmillis =>
      rw [readFraction_padded hzone.endsDigits (by decide) (by decide) (by omega)]
      congr 2
      omega
    next =>
      split
      next hmicros =>
        rw [readFraction_padded hzone.endsDigits (by decide) (by decide) (by omega)]
        congr 2
        omega
      next =>
        rw [readFraction_padded hzone.endsDigits (by decide) (by decide) h]
        congr 2
        omega

theorem fractionText_append_inj {zone : List Char} (hzone : EndsFraction zone) (h : n < 10 ^ 9)
    (h' : n' < 10 ^ 9) (heq : fractionText n ++ zone = fractionText n' ++ zone) : n = n' := by
  have hread := readFraction_fractionText hzone h
  rw [heq, readFraction_fractionText hzone h'] at hread
  cases hread
  rfl

theorem endsDigits_fractionText {zone : List Char} (hzone : EndsFraction zone) :
    EndsDigits (fractionText n ++ zone) := by
  unfold fractionText
  split
  · exact hzone.endsDigits
  · split
    · exact endsDigits_cons rfl
    · split
      · exact endsDigits_cons rfl
      · exact endsDigits_cons rfl

/-- Instants with one text are one. -/
theorem text_inj {zone : List Char} (hzone : EndsFraction zone) {t t' : Instant}
    (h : t.text zone = t'.text zone) : t = t' := by
  simp only [text, List.append_assoc] at h
  obtain ⟨hyear, h⟩ := yearText_append_inj (endsDigits_cons rfl) (endsDigits_cons rfl) h
  obtain ⟨hmonth, h⟩ := padded_append_inj (endsDigits_cons rfl) (endsDigits_cons rfl) (List.cons.inj h).2
  obtain ⟨hday, h⟩ := padded_append_inj (endsDigits_cons rfl) (endsDigits_cons rfl) (List.cons.inj h).2
  obtain ⟨hhour, h⟩ := padded_append_inj (endsDigits_cons rfl) (endsDigits_cons rfl) (List.cons.inj h).2
  obtain ⟨hminute, h⟩ := padded_append_inj (endsDigits_cons rfl) (endsDigits_cons rfl) (List.cons.inj h).2
  obtain ⟨hsecond, h⟩ := padded_append_inj (endsDigits_fractionText hzone)
    (endsDigits_fractionText hzone) (List.cons.inj h).2
  have hnanosecond := fractionText_append_inj hzone t.nanosecond_lt t'.nanosecond_lt h
  have hdate : Date.ofDays (t.minute / minutesPerDay) = Date.ofDays (t'.minute / minutesPerDay) := by
    cases hd : Date.ofDays (t.minute / minutesPerDay)
    cases hd' : Date.ofDays (t'.minute / minutesPerDay)
    rw [hd, hd'] at hyear hmonth hday
    congr
  have hdays := congrArg Date.toDays hdate
  rw [Date.toDays_ofDays, Date.toDays_ofDays] at hdays
  have hminutes : t.minute = t'.minute := by
    simp only [minuteOfDay, minutesPerDay] at hhour hminute hdays
    omega
  cases t
  cases t'
  cases hminutes
  cases hsecond
  cases hnanosecond
  rfl

end Instant

end Delegation
