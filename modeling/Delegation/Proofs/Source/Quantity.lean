import Delegation.Policy.Canonical
import Delegation.Proofs.Number.Text
import Delegation.Source.Grammar

namespace Delegation

namespace Grammar

variable {n amount seconds period : Nat} {x : Binary64} {unit : String}

theorem ofLiteral_toDigits (n : Nat) :
    Binary64.ofLiteral false (Nat.toDigits 10 n) [] = Binary64.ofNat n := by
  rw [Binary64.ofLiteral, List.append_nil, digitsValue_toDigits]
  rfl

theorem quantity?_of_toNat? (h : x.toNat? = some n) (hn : n ≤ maxCount + 1) :
    quantity? x = some (min n maxCount) := by
  rw [quantity?, h]
  exact if_pos hn

theorem exists_toNat? (h : quantity? x = some n) :
    ∃ m, x.toNat? = some m ∧ n = min m maxCount := by
  rw [quantity?] at h
  cases hm : x.toNat? with
  | none =>
    rw [hm] at h
    cases h
  | some m =>
    rw [hm] at h
    dsimp only at h
    split at h
    · cases h
      exact ⟨m, rfl, rfl⟩
    · cases h

end Grammar

namespace Binary64

variable {n : Nat} {x : Binary64}

theorem representable_of_toNat? (h : x.toNat? = some n) : Representable n := by
  rw [toNat?] at h
  split at h
  next hx =>
    cases h
    have hunits : unitsPerOne * (units x.rank / unitsPerOne) = units x.rank :=
      Nat.mul_div_cancel' (Nat.dvd_of_mod_eq_zero hx.2.2)
    apply Representable.of_mul (k := unitsPerOne) _ unitsPerOne_pos
    rw [hunits]
    exact representable_units x.rank
  next => cases h

theorem toNat?_ofNat (h : Representable n) (hn : n < 2 ^ 65) : (ofNat n).toNat? = some n := by
  obtain ⟨m, b, hm, he⟩ := h
  have hu : Representable (n * unitsPerOne) := by
    refine ⟨m, b + leastPlaces, hm, ?_⟩
    rw [he, unitsPerOne, Nat.mul_assoc, ← Nat.pow_add]
  have hlt : n * unitsPerOne < 2 ^ (1024 + leastPlaces) := by
    have hbound : 2 ^ 65 * unitsPerOne ≤ 2 ^ (1024 + leastPlaces) := by
      rw [unitsPerOne, ← Nat.pow_add]
      exact Nat.pow_le_pow_right Nat.two_pos (by decide)
    exact Nat.lt_of_lt_of_le (Nat.mul_lt_mul_of_pos_right hn unitsPerOne_pos) hbound
  obtain ⟨rank, hfinite, hunits⟩ := hu.exists_rank hlt
  have hrank : (ofNat n).rank = rank := by
    rw [ofNat, ofRatio, ← nearestRank_units hfinite, hunits]
    apply nearestRank_congr Nat.one_pos unitsPerOne_pos
    rw [Nat.mul_one]
  have hkey : 0 ≤ (ofNat n).key := Int.natCast_nonneg _
  have hfinite' : (ofNat n).IsFinite := by
    rw [← hrank] at hfinite
    exact hfinite
  rw [toNat?, hrank, hunits, Nat.mul_mod_left, Nat.mul_div_cancel n unitsPerOne_pos]
  exact if_pos ⟨hfinite', hkey, rfl⟩

end Binary64

namespace Grammar

variable {n amount seconds period : Nat} {x : Binary64} {unit : String}

/-- Written in decimal and read as a number, a count is a count again. -/
def Readable (n : Nat) : Prop := quantity? (Binary64.ofNat n) = some n

theorem readable_of_representable (h : Binary64.Representable n) (hn : n ≤ maxCount) : Readable n := by
  rw [maxCount] at hn
  rw [Readable, quantity?_of_toNat? (Binary64.toNat?_ofNat h (by omega)) (by rw [maxCount]; omega),
    maxCount, Nat.min_eq_left hn]

theorem readable_maxCount : Readable maxCount := by
  rw [Readable]
  decide +kernel

theorem representable_or_eq (h : quantity? x = some n) :
    n ≤ maxCount ∧ (Binary64.Representable n ∨ n = maxCount) := by
  obtain ⟨m, hm, rfl⟩ := exists_toNat? h
  refine ⟨Nat.min_le_right _ _, ?_⟩
  rcases Nat.le_total m maxCount with hle | hle
  · rw [Nat.min_eq_left hle]
    exact .inl (Binary64.representable_of_toNat? hm)
  · rw [Nat.min_eq_right hle]
    exact .inr rfl

theorem readable_of_quantity? (h : quantity? x = some n) : Readable n := by
  obtain ⟨hle, hr | rfl⟩ := representable_or_eq h
  · exact readable_of_representable hr hle
  · exact readable_maxCount

theorem unitSeconds?_cases (h : unitSeconds? unit = some seconds) :
    seconds = 1 ∨ seconds = 60 ∨ seconds = 3600 ∨ seconds = 86400 := by
  unfold unitSeconds? at h
  split at h <;> cases h
  all_goals decide

/-- The largest unit is one that divides the period, and every unit that divides the period divides
it. -/
theorem largestUnit_spec (hp : 0 < period) :
    ∃ k, unitSeconds? (largestUnit period).2 = some k ∧ (largestUnit period).1 * k = period ∧
      ∀ unit seconds, unitSeconds? unit = some seconds → seconds ∣ period → seconds ∣ k := by
  -- a unit that divides the period was tried before the one that was taken, or divides that one
  rw [largestUnit]
  simp only [Bool.and_eq_true, decide_eq_true_eq, beq_iff_eq]
  split
  next hday =>
    refine ⟨86400, rfl, Nat.div_mul_cancel (Nat.dvd_of_mod_eq_zero hday.2), ?_⟩
    intro unit seconds hs hdvd
    rcases unitSeconds?_cases hs with rfl | rfl | rfl | rfl <;> omega
  split
  next hday hhour =>
    refine ⟨3600, rfl, Nat.div_mul_cancel (Nat.dvd_of_mod_eq_zero hhour.2), ?_⟩
    intro unit seconds hs hdvd
    rcases unitSeconds?_cases hs with rfl | rfl | rfl | rfl <;> omega
  split
  next hday hhour hminute =>
    refine ⟨60, rfl, Nat.div_mul_cancel (Nat.dvd_of_mod_eq_zero hminute.2), ?_⟩
    intro unit seconds hs hdvd
    rcases unitSeconds?_cases hs with rfl | rfl | rfl | rfl <;> omega
  next hday hhour hminute =>
    refine ⟨1, rfl, Nat.mul_one period, ?_⟩
    intro unit seconds hs hdvd
    rcases unitSeconds?_cases hs with rfl | rfl | rfl | rfl <;> omega

theorem readable_amount (h : quantity? x = some amount) (hs : unitSeconds? unit = some seconds)
    (hle : amount * seconds ≤ maxCount) (hpos : 0 < amount * seconds) :
    Readable (largestUnit (amount * seconds)).1 := by
  obtain ⟨k, hk, hmul, hunits⟩ := largestUnit_spec hpos
  obtain ⟨r, rfl⟩ := hunits unit seconds hs (Nat.dvd_mul_left seconds amount)
  have hs₀ : 0 < seconds := Nat.pos_of_mul_pos_left hpos
  generalize hlargest : (largestUnit (amount * seconds)).1 = largest at hmul ⊢
  have hamount : r * largest = amount := by
    apply Nat.eq_of_mul_eq_mul_right hs₀
    rw [← hmul, Nat.mul_comm r, Nat.mul_assoc, Nat.mul_comm r]
  have hr₀ : 0 < r := by
    rw [← hamount] at hpos
    exact Nat.pos_of_mul_pos_right (Nat.pos_of_mul_pos_right hpos)
  have hlargest_le : largest ≤ maxCount := by
    calc
      largest ≤ largest * (seconds * r) := Nat.le_mul_of_pos_right _ (Nat.mul_pos hs₀ hr₀)
      _ = amount * seconds := hmul
      _ ≤ maxCount := hle
  obtain ⟨-, hrep | hmax⟩ := representable_or_eq h
  · apply readable_of_representable _ hlargest_le
    rw [← hamount] at hrep
    exact hrep.of_mul hr₀
  · rw [maxCount] at hmax hle
    rw [hmax] at hle
    have hseconds : seconds = 1 := by omega
    rw [hseconds, Nat.one_mul] at hk
    rcases unitSeconds?_cases hk with rfl | rfl | rfl | rfl
    · rw [Nat.one_mul] at hamount
      rw [hamount, hmax]
      exact readable_maxCount
    all_goals omega

end Grammar

end Delegation
