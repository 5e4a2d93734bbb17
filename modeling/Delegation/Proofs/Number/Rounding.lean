import Delegation.Number.Binary64
import Mathlib.Data.Nat.Factorization.Basic

namespace Delegation

namespace Binary64

variable {num den num' den' rank k u m b : Nat}

theorem unitsPerOne_pos : 0 < unitsPerOne := by
  rw [unitsPerOne]
  exact Nat.two_pow_pos leastPlaces

theorem nearestQuotient_mul_right (q : Nat) (hd : 0 < den) : nearestQuotient (q * den) den = q := by
  simp only [nearestQuotient, Nat.mul_mod_left, Nat.mul_div_cancel q hd, Nat.mul_zero]
  exact if_pos (.inl hd)

theorem nearestQuotient_mul_left (hk : 0 < k) :
    nearestQuotient (k * num) (k * den) = nearestQuotient num den := by
  have htwice : 2 * (k * num % (k * den)) = k * (2 * (num % den)) := by
    rw [Nat.mul_mod_mul_left, Nat.mul_left_comm]
  simp only [nearestQuotient, htwice, Nat.mul_div_mul_left _ _ hk, Nat.mul_lt_mul_left hk,
    Nat.mul_left_cancel_iff hk]

theorem nearestRank_mul_left (hk : 0 < k) :
    nearestRank (k * num) (k * den) = nearestRank num den := by
  simp only [nearestRank, Nat.mul_assoc, Nat.mul_div_mul_left _ _ hk, nearestQuotient_mul_left hk]

theorem nearestRank_congr (hd : 0 < den) (hd' : 0 < den') (h : num * den' = num' * den) :
    nearestRank num den = nearestRank num' den' := by
  calc
    nearestRank num den = nearestRank (den' * num) (den' * den) := (nearestRank_mul_left hd').symm
    _ = nearestRank (den * num') (den * den') := by
      rw [Nat.mul_comm den' num, h, Nat.mul_comm den' den, Nat.mul_comm num' den]
    _ = nearestRank num' den' := nearestRank_mul_left hd

theorem nearestRank_zero (hd : 0 < den) : nearestRank 0 den = 0 := by
  have hquotient : nearestQuotient (0 * den) den = 0 := nearestQuotient_mul_right 0 hd
  rw [Nat.zero_mul] at hquotient
  have hexcess : excessPlaces 0 = 0 := rfl
  simp only [nearestRank, Nat.zero_mul, Nat.zero_div, hexcess, Nat.pow_zero, Nat.mul_one, hquotient,
    Nat.add_zero, Nat.min_zero]

theorem units_of_lt (h : rank < 2 ^ 52) : units rank = rank := by
  simp only [units, Nat.div_eq_of_lt h, Nat.mod_eq_of_lt h, if_true]

theorem units_binade (b : Nat) {o : Nat} (ho : o < 2 ^ 52) :
    units ((b + 1) * 2 ^ 52 + o) = (2 ^ 52 + o) * 2 ^ b := by
  have hdiv : ((b + 1) * 2 ^ 52 + o) / 2 ^ 52 = b + 1 := by omega
  have hmod : ((b + 1) * 2 ^ 52 + o) % 2 ^ 52 = o := by omega
  simp only [units, hdiv, hmod, Nat.add_sub_cancel]
  exact if_neg (Nat.succ_ne_zero b)

/-- A rank is below the first binade, or names a binade and an offset in it. -/
theorem rank_cases (rank : Nat) :
    rank < 2 ^ 52 ∨ ∃ b o, o < 2 ^ 52 ∧ rank = (b + 1) * 2 ^ 52 + o := by
  by_cases h : rank < 2 ^ 52
  · exact .inl h
  · exact .inr ⟨rank / 2 ^ 52 - 1, rank % 2 ^ 52, by omega, by omega⟩

theorem excessPlaces_of_lt (h : u < 2 ^ 53) : excessPlaces u = 0 := by
  by_cases hu : u = 0
  · subst hu
    rfl
  · have hlog := (Nat.log2_lt hu).2 h
    rw [excessPlaces]
    omega

theorem excessPlaces_mul (hm : 2 ^ 52 ≤ m) (hm' : m < 2 ^ 53) (b : Nat) :
    excessPlaces (m * 2 ^ b) = b := by
  have hpos := Nat.two_pow_pos b
  have hne : m * 2 ^ b ≠ 0 := Nat.mul_ne_zero (by omega) (by omega)
  have hlog : (m * 2 ^ b).log2 = 52 + b := by
    rw [Nat.log2_eq_iff hne, Nat.pow_add, Nat.add_right_comm, Nat.pow_add]
    exact ⟨Nat.mul_le_mul_right _ hm, Nat.mul_lt_mul_of_pos_right hm' hpos⟩
  rw [excessPlaces, hlog, Nat.add_sub_cancel_left]

/-- The rank of a magnitude is its excess in binades and its leading places. -/
theorem rank_eq_excess (rank : Nat) : ∃ q, units rank = q * 2 ^ excessPlaces (units rank) ∧
    rank = excessPlaces (units rank) * 2 ^ 52 + q := by
  rcases rank_cases rank with h | ⟨b, o, ho, rfl⟩
  · rw [units_of_lt h, excessPlaces_of_lt (by omega)]
    exact ⟨rank, (Nat.mul_one rank).symm, by omega⟩
  · rw [units_binade b ho, excessPlaces_mul (by omega) (by omega)]
    exact ⟨2 ^ 52 + o, rfl, by omega⟩

theorem nearestRank_units (h : rank < infinityRank) :
    nearestRank (units rank) unitsPerOne = rank := by
  obtain ⟨q, hq, hr⟩ := rank_eq_excess rank
  have hpos : 0 < unitsPerOne * 2 ^ excessPlaces (units rank) :=
    Nat.mul_pos unitsPerOne_pos (Nat.two_pow_pos _)
  have hscaled : units rank * unitsPerOne =
      q * (unitsPerOne * 2 ^ excessPlaces (units rank)) := by
    rw [Nat.mul_comm unitsPerOne, ← Nat.mul_assoc, ← hq]
  simp only [nearestRank, Nat.mul_div_cancel _ unitsPerOne_pos]
  rw [hscaled, nearestQuotient_mul_right q hpos, ← hr]
  exact Nat.min_eq_right (Nat.le_of_lt h)

/-- A whole number with at most 53 binary digits before its zeros. -/
def Representable (u : Nat) : Prop := ∃ m b, m < 2 ^ 53 ∧ u = m * 2 ^ b

theorem representable_units (rank : Nat) : Representable (units rank) := by
  rcases rank_cases rank with h | ⟨b, o, ho, rfl⟩
  · rw [units_of_lt h]
    exact ⟨rank, 0, by omega, (Nat.mul_one rank).symm⟩
  · rw [units_binade b ho]
    exact ⟨2 ^ 52 + o, b, by omega, rfl⟩

theorem Representable.of_mul (h : Representable (k * u)) (hk : 0 < k) : Representable u := by
  obtain ⟨m, b, hm, he⟩ := h
  by_cases hu : u = 0
  · exact ⟨0, 0, Nat.two_pow_pos _, by rw [hu, Nat.zero_mul]⟩
  · obtain ⟨c, v, hodd, hv⟩ := Nat.exists_eq_two_pow_mul_odd hu
    have hku : 0 < k * u := Nat.mul_pos hk (Nat.pos_of_ne_zero hu)
    have hm₀ : 0 < m := by
      rw [he] at hku
      exact Nat.pos_of_mul_pos_right hku
    have hdvd : v ∣ m * 2 ^ b := by
      rw [← he, hv]
      exact Dvd.intro_left (k * 2 ^ c) (by rw [Nat.mul_assoc])
    have hcop : Nat.Coprime v (2 ^ b) := (Nat.coprime_two_right.2 hodd).pow_right b
    have hle : v ≤ m := Nat.le_of_dvd hm₀ (hcop.dvd_of_dvd_mul_right hdvd)
    exact ⟨v, c, Nat.lt_of_le_of_lt hle hm, by rw [hv, Nat.mul_comm]⟩

theorem Representable.exists_rank (h : Representable u) (hu : u < 2 ^ (1024 + leastPlaces)) :
    ∃ rank, rank < infinityRank ∧ units rank = u := by
  obtain ⟨m, b, hm, he⟩ := h
  by_cases hsmall : u < 2 ^ 52
  · exact ⟨u, by rw [infinityRank]; omega, units_of_lt hsmall⟩
  · obtain ⟨e, hlow, hhigh⟩ : ∃ e, 2 ^ (52 + e) ≤ u ∧ u < 2 ^ (53 + e) := by
      have hne : u ≠ 0 := by omega
      have hlog : 52 ≤ u.log2 := (Nat.le_log2 hne).2 (by omega)
      refine ⟨u.log2 - 52, ?_, ?_⟩
      · rw [Nat.add_sub_cancel' hlog]
        exact Nat.log2_self_le hne
      · rw [show 53 + (u.log2 - 52) = u.log2 + 1 by omega]
        exact Nat.lt_log2_self
    have heb : e ≤ b := by
      have hlt : 2 ^ (52 + e) < 2 ^ (53 + b) := by
        rw [Nat.pow_add 2 53 b]
        rw [he] at hlow
        exact Nat.lt_of_le_of_lt hlow (Nat.mul_lt_mul_of_pos_right hm (Nat.two_pow_pos b))
      have hexp := (Nat.pow_lt_pow_iff_right (Nat.le_refl 2)).1 hlt
      omega
    have he' : e < 2046 := by
      have hexp := (Nat.pow_lt_pow_iff_right (Nat.le_refl 2)).1 (Nat.lt_of_le_of_lt hlow hu)
      rw [leastPlaces] at hexp
      omega
    obtain ⟨q, hq⟩ : ∃ q, u = q * 2 ^ e :=
      ⟨m * 2 ^ (b - e), by rw [he, Nat.mul_assoc, ← Nat.pow_add, Nat.sub_add_cancel heb]⟩
    have hpos := Nat.two_pow_pos e
    rw [hq, Nat.pow_add] at hlow hhigh
    have hq₁ : 2 ^ 52 ≤ q := Nat.le_of_mul_le_mul_right hlow hpos
    have hq₂ : q < 2 ^ 53 := Nat.lt_of_mul_lt_mul_right hhigh
    refine ⟨(e + 1) * 2 ^ 52 + (q - 2 ^ 52), by rw [infinityRank]; omega, ?_⟩
    rw [units_binade e (by omega), Nat.add_sub_cancel' hq₁, hq]

end Binary64

end Delegation
