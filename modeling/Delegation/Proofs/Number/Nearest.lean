import Delegation.Proofs.Number.Text
import Mathlib.Algebra.Order.Ring.Unbundled.Rat
import Mathlib.Tactic.FieldSimp
import Mathlib.Tactic.Positivity

namespace Delegation

/-- What digits write, of which those after a point are a fraction. -/
def unsignedValue (digits : List Char) : ℚ :=
  let whole := digits.takeWhile (· ≠ '.')
  let fraction := (digits.dropWhile (· ≠ '.')).tail
  digitsValue whole + digitsValue fraction / 10 ^ fraction.length

/-- What a literal writes: a minus sign or none, and digits. -/
def decimalValue : List Char → ℚ
  | '-' :: digits => -unsignedValue digits
  | digits => unsignedValue digits

namespace Literal

variable (l : Literal)

theorem unsignedValue_text :
    unsignedValue l.text = digitsValue (l.whole ++ l.fraction) / 10 ^ l.fraction.length := by
  have hwhole : ∀ c ∈ l.whole, decide (c ≠ '.') = true := by
    intro c hc
    rw [decide_eq_true_iff]
    rintro rfl
    exact absurd (l.isDigit_whole '.' hc) (by decide)
  have hsplit : (pointed l.fraction).takeWhile (· ≠ '.') = [] ∧
      ((pointed l.fraction).dropWhile (· ≠ '.')).tail = l.fraction := by
    rw [pointed]
    split
    next hnil => exact ⟨rfl, hnil.symm⟩
    next => exact ⟨rfl, rfl⟩
  have hten : (10 : ℚ) ^ l.fraction.length ≠ 0 := by positivity
  rw [unsignedValue, text, List.takeWhile_append_of_pos hwhole, List.dropWhile_append_of_pos hwhole, hsplit.1,
    hsplit.2, List.append_nil, digitsValue_append]
  push_cast
  field_simp

theorem decimalValue_text (negative : Bool) : decimalValue (Binary64.sign negative ++ l.text) =
    (if negative then -1 else 1) * (digitsValue (l.whole ++ l.fraction) / 10 ^ l.fraction.length) := by
  cases negative with
  | true => exact (congrArg (- ·) l.unsignedValue_text).trans (neg_one_mul _).symm
  | false =>
    obtain ⟨c, cs, hwhole⟩ := List.exists_cons_of_ne_nil l.whole_ne_nil
    have hsign : c ≠ '-' := by
      rintro rfl
      exact absurd (l.isDigit_whole '-' (hwhole ▸ List.mem_cons_self)) (by decide)
    have htext : l.text = c :: (cs ++ pointed l.fraction) := by rw [text, hwhole, List.cons_append]
    rw [if_neg Bool.false_ne_true, one_mul, ← l.unsignedValue_text, Binary64.sign, if_neg Bool.false_ne_true,
      List.nil_append, htext, decimalValue]
    exact fun _ h => hsign (List.cons.inj h).1

end Literal

namespace Binary64

variable {x y : Binary64} {num den : Nat} {negative : Bool}

def nearest (v : ℚ) : Binary64 := ofRatio (decide (v < 0)) v.num.natAbs v.den

theorem toNat?_congr (hrank : x.rank = y.rank) (hsign : x.rank ≠ 0 → x.negative = y.negative) :
    x.toNat? = y.toNat? := by
  have hkey : x.key = y.key := by
    by_cases hzero : x.rank = 0
    · rw [key, key, ← hrank, hzero]
      simp
    · rw [key, key, ← hrank, hsign hzero]
  have hfinite : x.IsFinite = y.IsFinite := congrArg (· < infinityRank) hrank
  simp only [toNat?, hfinite, hrank, hkey]

theorem nearestRank_rat (hd : 0 < den) {v : ℚ} (hv : |v| = num / den) :
    nearestRank v.num.natAbs v.den = nearestRank num den := by
  apply nearestRank_congr v.den_pos hd
  have habs : |v| = (v.num.natAbs : ℚ) / v.den := by
    rw [Nat.cast_natAbs, Int.cast_abs]
    conv_lhs => rw [← Rat.num_div_den v]
    rw [abs_div, Nat.abs_cast]
  have hden : (den : ℚ) ≠ 0 := by positivity
  have hvden : (v.den : ℚ) ≠ 0 := by positivity
  rw [hv, div_eq_div_iff hden hvden] at habs
  exact_mod_cast habs.symm

theorem toNat?_ofRatio (hd : 0 < den) : (ofRatio negative num den).toNat? =
    (nearest ((if negative then -1 else 1) * (num / den))).toNat? := by
  have hquotient : (0 : ℚ) ≤ num / den := by positivity
  have habs : |(if negative then -1 else 1) * ((num : ℚ) / den)| = num / den := by
    cases negative <;> simp [abs_of_nonneg hquotient]
  have hrank : (ofRatio negative num den).rank =
      (nearest ((if negative then -1 else 1) * (num / den))).rank := (nearestRank_rat hd habs).symm
  apply toNat?_congr hrank
  intro hne
  have hpos : (0 : ℚ) < num / den := by
    apply lt_of_le_of_ne hquotient
    intro hzero
    have hnum : num = 0 := by
      have hden : (den : ℚ) ≠ 0 := by positivity
      exact_mod_cast (div_eq_zero_iff.1 hzero.symm).resolve_right hden
    rw [ofRatio, hnum] at hne
    exact hne (nearestRank_zero hd)
  cases negative with
  | true => exact (decide_eq_true (by simpa using hpos)).symm
  | false => exact (decide_eq_false (by simpa using hquotient)).symm

theorem toNat?_ofLiteral (negative : Bool) (l : Literal) :
    (ofLiteral negative l.whole l.fraction).toNat? =
      (nearest (decimalValue (sign negative ++ l.text))).toNat? := by
  rw [ofLiteral, toNat?_ofRatio (Nat.pow_pos (Nat.succ_pos 9)), l.decimalValue_text]
  push_cast
  rfl

theorem nearest_natCast (n : Nat) : nearest n = ofNat n := by
  have hsign : decide ((n : ℚ) < 0) = false := decide_eq_false (not_lt.2 (Nat.cast_nonneg n))
  rw [nearest, hsign, Rat.num_natCast, Rat.den_natCast, Int.natAbs_natCast, ofNat]

end Binary64

end Delegation
