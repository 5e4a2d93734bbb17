import Delegation.Proofs.Number.Rounding

namespace Delegation

namespace Binary64

variable {num num' den u v m n : Nat}

theorem le_nearestQuotient (num den : Nat) : num / den ≤ nearestQuotient num den := by
  unfold nearestQuotient
  dsimp only
  split
  · exact Nat.le_refl _
  · exact Nat.le_succ _

theorem nearestQuotient_le (num den : Nat) : nearestQuotient num den ≤ num / den + 1 := by
  unfold nearestQuotient
  dsimp only
  split
  · exact Nat.le_succ _
  · exact Nat.le_refl _

theorem nearestQuotient_mono (h : num ≤ num') : nearestQuotient num den ≤ nearestQuotient num' den := by
  rcases Nat.lt_or_eq_of_le (Nat.div_le_div_right (c := den) h) with hlt | heq
  · calc
      nearestQuotient num den ≤ num / den + 1 := nearestQuotient_le num den
      _ ≤ num' / den := hlt
      _ ≤ nearestQuotient num' den := le_nearestQuotient num' den
  · have hmod : num % den ≤ num' % den := by
      have hnum := Nat.div_add_mod num den
      have hnum' := Nat.div_add_mod num' den
      rw [heq] at hnum
      omega
    unfold nearestQuotient
    dsimp only
    rw [heq]
    split
    · split
      · exact Nat.le_refl _
      · exact Nat.le_succ _
    · split
      · omega
      · exact Nat.le_refl _

theorem excessPlaces_mono (h : u ≤ v) : excessPlaces u ≤ excessPlaces v := by
  apply Nat.sub_le_sub_right
  by_cases hu : u = 0
  · rw [hu]
    exact Nat.zero_le _
  · exact (Nat.le_log2 (by omega)).2 (Nat.le_trans (Nat.log2_self_le hu) h)

theorem lt_of_excessPlaces (u : Nat) : u < 2 ^ (53 + excessPlaces u) := by
  have hle : u.log2 + 1 ≤ 53 + excessPlaces u := by
    rw [excessPlaces]
    omega
  exact Nat.lt_of_lt_of_le Nat.lt_log2_self (Nat.pow_le_pow_right Nat.two_pos hle)

theorem le_of_excessPlaces (h : 0 < excessPlaces u) : 2 ^ (52 + excessPlaces u) ≤ u := by
  rw [excessPlaces] at h ⊢
  have hne : u ≠ 0 := by
    rintro rfl
    exact absurd h (by decide)
  rw [Nat.add_sub_cancel' (by omega)]
  exact Nat.log2_self_le hne

theorem nearestQuotient_excess_le (num den : Nat) :
    nearestQuotient num (den * 2 ^ excessPlaces (num / den)) ≤ 2 ^ 53 := by
  have hlt : num / (den * 2 ^ excessPlaces (num / den)) < 2 ^ 53 := by
    rw [← Nat.div_div_eq_div_mul, Nat.div_lt_iff_lt_mul (Nat.two_pow_pos _), ← Nat.pow_add]
    exact lt_of_excessPlaces (num / den)
  exact Nat.le_trans (nearestQuotient_le _ _) hlt

theorem le_nearestQuotient_excess (h : 0 < excessPlaces (num / den)) :
    2 ^ 52 ≤ nearestQuotient num (den * 2 ^ excessPlaces (num / den)) := by
  have hle : 2 ^ 52 ≤ num / (den * 2 ^ excessPlaces (num / den)) := by
    rw [← Nat.div_div_eq_div_mul, Nat.le_div_iff_mul_le (Nat.two_pow_pos _), ← Nat.pow_add]
    exact le_of_excessPlaces h
  exact Nat.le_trans hle (le_nearestQuotient _ _)

/-- A larger number never rounds to a smaller one. -/
theorem nearestRank_mono (h : num ≤ num') : nearestRank num den ≤ nearestRank num' den := by
  have hscaled : num * unitsPerOne ≤ num' * unitsPerOne := Nat.mul_le_mul_right _ h
  simp only [nearestRank]
  generalize num * unitsPerOne = s at hscaled
  generalize num' * unitsPerOne = s' at hscaled
  have hexcess := excessPlaces_mono (Nat.div_le_div_right (c := den) hscaled)
  apply Nat.le_min.2 ⟨Nat.min_le_left _ _, Nat.le_trans (Nat.min_le_right _ _) ?_⟩
  rcases Nat.lt_or_eq_of_le hexcess with hlt | heq
  · have hlow := nearestQuotient_excess_le s den
    have hhigh := le_nearestQuotient_excess (Nat.zero_lt_of_lt hlt)
    omega
  · rw [heq]
    exact Nat.add_le_add_left (nearestQuotient_mono hscaled) _

/-- Whole numbers compare as their nearest values do, unless these are the same. -/
theorem ofNat_atMost_iff : (ofNat m).atMost (ofNat n) = true ↔ m ≤ n ∨ ofNat m = ofNat n := by
  have hkeys : (ofNat m).atMost (ofNat n) = true ↔ nearestRank m 1 ≤ nearestRank n 1 := by
    rw [atMost, decide_eq_true_iff]
    exact Int.ofNat_le
  rw [hkeys]
  constructor
  · intro hle
    rcases Nat.le_total m n with hmn | hnm
    · exact .inl hmn
    · have heq : nearestRank m 1 = nearestRank n 1 := Nat.le_antisymm hle (nearestRank_mono hnm)
      refine .inr ?_
      simp only [ofNat, ofRatio, heq]
  · rintro (hmn | heq)
    · exact nearestRank_mono hmn
    · exact Nat.le_of_eq (congrArg rank heq)

theorem ofInt_natCast (n : Nat) : ofInt n = ofNat n := by
  have hnegative : decide ((n : Int) < 0) = false := decide_eq_false (Int.not_lt.2 (Int.natCast_nonneg n))
  rw [ofInt, hnegative, Int.natAbs_natCast, ofNat]

end Binary64

end Delegation
