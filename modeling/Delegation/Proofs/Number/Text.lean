import Delegation.Number.Decimal
import Delegation.Proofs.Number.Rounding
import Mathlib.Data.List.TakeWhile

namespace Delegation

theorem digitsValue_toDigits (n : Nat) : digitsValue (Nat.toDigits 10 n) = n :=
  Nat.ofDigitChars_ten_toDigits

theorem digitsValue_append (xs ys : List Char) :
    digitsValue (xs ++ ys) = digitsValue xs * 10 ^ ys.length + digitsValue ys := by
  change Nat.ofDigitChars 10 (xs ++ ys) 0 = _
  rw [Nat.ofDigitChars_append, Nat.ofDigitChars_eq_ofDigitChars_zero, Nat.mul_comm]
  rfl

theorem digitsValue_zeros (n : Nat) : digitsValue (List.replicate n '0') = 0 :=
  Nat.ofDigitChars_replicate_zero.trans (Nat.mul_zero _)

theorem digitsValue_zeros_append (n : Nat) (xs : List Char) :
    digitsValue (List.replicate n '0' ++ xs) = digitsValue xs := by
  rw [digitsValue_append, digitsValue_zeros, Nat.zero_mul, Nat.zero_add]

namespace Decimal

variable {d : Decimal} {rank : Nat}

theorem den_pos (d : Decimal) : 0 < d.den := Nat.pow_pos (Nat.succ_pos 9)

theorem rank_of_readingBack? {upper : Bool} {below above : Decimal}
    (h : readingBack? rank upper below above = some d) : d.rank = rank := by
  rw [readingBack?] at h
  by_cases hb : below.rank = rank
  · by_cases ha : above.rank = rank
    · rw [if_pos hb, if_pos ha] at h
      cases upper with
      | true => cases h; exact ha
      | false => cases h; exact hb
    · rw [if_pos hb, if_neg ha] at h
      cases h
      exact hb
  · by_cases ha : above.rank = rank
    · rw [if_neg hb, if_pos ha] at h
      cases h
      exact ha
    · rw [if_neg hb, if_neg ha] at h
      cases h

theorem rank_of_withDigits? {tie : Tie} {count : Nat} (h : withDigits? tie rank count = some d) :
    d.rank = rank := by
  unfold withDigits? at h
  exact rank_of_readingBack? h

theorem rank_fives (u n : Nat) :
    Decimal.rank ⟨u * 5 ^ n, -(n : Int)⟩ = Binary64.nearestRank u (2 ^ n) := by
  rw [Decimal.rank, num, den, Int.toNat_neg_natCast, Int.neg_neg, Int.toNat_natCast, Nat.pow_zero,
    Nat.mul_one]
  apply Binary64.nearestRank_congr (Nat.pow_pos (Nat.succ_pos 9)) (Nat.two_pow_pos n)
  rw [Nat.mul_assoc, ← Nat.mul_pow]

theorem rank_exact (h : rank < Binary64.infinityRank) : (exact rank).rank = rank := by
  rw [exact, rank_fives]
  exact Binary64.nearestRank_units h

/-- The decimal that is written reads back. -/
theorem rank_shortest (tie : Tie) (h : rank < Binary64.infinityRank) :
    (shortest tie rank).rank = rank := by
  rw [shortest]
  cases hf : (List.range 17).findSome? fun i => withDigits? tie rank (i + 1) with
  | none => exact rank_exact h
  | some d =>
    obtain ⟨i, -, hi⟩ := List.exists_of_findSome?_eq_some hf
    exact rank_of_withDigits? hi

theorem coefficient_pos (h : 0 < d.rank) : 0 < d.coefficient := by
  rw [Nat.pos_iff_ne_zero]
  intro h₀
  rw [Decimal.rank, num, h₀, Nat.zero_mul, Binary64.nearestRank_zero d.den_pos] at h
  exact Nat.lt_irrefl 0 h

theorem exists_zeros (d : Decimal) :
    ∃ z, Nat.toDigits 10 d.coefficient = d.digits ++ List.replicate z '0' := by
  have hsplit := List.takeWhile_append_dropWhile (p := (· == '0'))
    (l := (Nat.toDigits 10 d.coefficient).reverse)
  have hrev := congrArg List.reverse hsplit
  rw [List.reverse_append, List.reverse_reverse] at hrev
  refine ⟨((Nat.toDigits 10 d.coefficient).reverse.takeWhile (· == '0')).length, ?_⟩
  refine hrev.symm.trans (congrArg (d.digits ++ ·) ?_)
  rw [List.eq_replicate_iff, List.length_reverse]
  refine ⟨rfl, fun c hc => ?_⟩
  have hzero := List.mem_takeWhile_imp (List.mem_reverse.1 hc)
  exact beq_iff_eq.1 hzero

theorem digits_ne_nil (h : 0 < d.rank) : d.digits ≠ [] := by
  intro hnil
  obtain ⟨z, hz⟩ := d.exists_zeros
  have hvalue := digitsValue_toDigits d.coefficient
  rw [hz, hnil, List.nil_append, digitsValue_zeros] at hvalue
  have hpos := coefficient_pos h
  omega

theorem isDigit_of_mem_digits {c : Char} (h : c ∈ d.digits) : c.isDigit = true := by
  obtain ⟨z, hz⟩ := d.exists_zeros
  have hmem : c ∈ Nat.toDigits 10 d.coefficient := by
    rw [hz]
    exact List.mem_append_left _ h
  exact Nat.isDigit_of_mem_toDigits (by decide) (by decide) hmem

/-- The digits that are written, shifted as far as their point stands from their end, read back. -/
theorem nearestRank_digits {z shift places : Nat}
    (hz : Nat.toDigits 10 d.coefficient = d.digits ++ List.replicate z '0')
    (h : (z : Int) + d.exponent = shift - places) :
    Binary64.nearestRank (digitsValue d.digits * 10 ^ shift) (10 ^ places) = d.rank := by
  have hc : d.coefficient = digitsValue d.digits * 10 ^ z := by
    rw [← digitsValue_toDigits d.coefficient, hz, digitsValue_append, digitsValue_zeros,
      List.length_replicate, Nat.add_zero]
  apply Binary64.nearestRank_congr (Nat.pow_pos (Nat.succ_pos 9)) d.den_pos
  rw [num, den, hc, Nat.mul_assoc, Nat.mul_assoc, Nat.mul_assoc, ← Nat.pow_add, ← Nat.pow_add,
    ← Nat.pow_add]
  congr 2
  omega

end Decimal

def pointed (fraction : List Char) : List Char :=
  if fraction = [] then [] else '.' :: fraction

structure Literal where
  whole : List Char
  fraction : List Char
  whole_ne_nil : whole ≠ []
  isDigit_whole : ∀ c ∈ whole, c.isDigit = true
  isDigit_fraction : ∀ c ∈ fraction, c.isDigit = true

namespace Literal

def text (l : Literal) : List Char := l.whole ++ pointed l.fraction

def rank (l : Literal) : Nat :=
  Binary64.nearestRank (digitsValue (l.whole ++ l.fraction)) (10 ^ l.fraction.length)

end Literal

namespace Decimal

variable {d : Decimal}

theorem isDigit_of_mem_zeros {n : Nat} {c : Char} (h : c ∈ List.replicate n '0') :
    c.isDigit = true := by
  rw [List.eq_of_mem_replicate h]
  decide

theorem point_eq {z : Nat} (hz : Nat.toDigits 10 d.coefficient = d.digits ++ List.replicate z '0') :
    d.point = (d.digits.length + z : Nat) + d.exponent := by
  rw [point, hz, List.length_append, List.length_replicate]

theorem exists_literal_below_one (h : d.digits ≠ []) (hpoint : d.point ≤ 0) :
    ∃ l : Literal, l.text = positional d.digits d.point ∧ l.rank = d.rank := by
  obtain ⟨z, hz⟩ := d.exists_zeros
  have hz' := point_eq hz
  refine ⟨⟨['0'], List.replicate (-d.point).toNat '0' ++ d.digits, List.cons_ne_nil _ _, ?_, ?_⟩,
    ?_, ?_⟩
  · intro c hc
    rw [List.mem_singleton.1 hc]
    decide
  · intro c hc
    rcases List.mem_append.1 hc with hc | hc
    · exact isDigit_of_mem_zeros hc
    · exact isDigit_of_mem_digits hc
  · rw [positional, if_pos hpoint, Literal.text, pointed,
      if_neg (List.append_ne_nil_of_right_ne_nil _ h)]
    rfl
  · simp only [Literal.rank]
    rw [← List.append_assoc, show ['0'] = List.replicate 1 '0' from rfl,
      List.replicate_append_replicate, digitsValue_zeros_append, ← Nat.mul_one (digitsValue _),
      ← Nat.pow_zero 10]
    apply nearestRank_digits hz
    rw [List.length_append, List.length_replicate]
    omega

theorem exists_literal_whole (h : d.digits ≠ []) (hpoint : 0 < d.point)
    (hlength : d.digits.length ≤ d.point.toNat) :
    ∃ l : Literal, l.text = positional d.digits d.point ∧ l.rank = d.rank := by
  obtain ⟨z, hz⟩ := d.exists_zeros
  have hz' := point_eq hz
  have hnat : (d.point.toNat : Int) = d.point := Int.toNat_of_nonneg (Int.le_of_lt hpoint)
  refine ⟨⟨d.digits ++ List.replicate (d.point.toNat - d.digits.length) '0', [],
    List.append_ne_nil_of_left_ne_nil h _, ?_, nofun⟩, ?_, ?_⟩
  · intro c hc
    rcases List.mem_append.1 hc with hc | hc
    · exact isDigit_of_mem_digits hc
    · exact isDigit_of_mem_zeros hc
  · rw [positional, if_neg (Int.not_le.2 hpoint), if_pos hlength, Literal.text, pointed, if_pos rfl,
      List.append_nil]
  · rw [Literal.rank, List.append_nil, digitsValue_append, digitsValue_zeros, Nat.add_zero,
      List.length_replicate]
    apply nearestRank_digits hz
    rw [List.length_nil]
    omega

theorem exists_literal_pointed (h : d.digits ≠ []) (hpoint : 0 < d.point)
    (hlength : ¬d.digits.length ≤ d.point.toNat) :
    ∃ l : Literal, l.text = positional d.digits d.point ∧ l.rank = d.rank := by
  obtain ⟨z, hz⟩ := d.exists_zeros
  have hz' := point_eq hz
  have htake : d.digits.take d.point.toNat ≠ [] := by
    rw [Ne, List.take_eq_nil_iff, not_or]
    exact ⟨by omega, h⟩
  have hdrop : d.digits.drop d.point.toNat ≠ [] := by
    rw [Ne, List.drop_eq_nil_iff]
    exact hlength
  refine ⟨⟨d.digits.take d.point.toNat, d.digits.drop d.point.toNat, htake, ?_, ?_⟩, ?_, ?_⟩
  · exact fun c hc => isDigit_of_mem_digits (List.mem_of_mem_take hc)
  · exact fun c hc => isDigit_of_mem_digits (List.mem_of_mem_drop hc)
  · rw [positional, if_neg (Int.not_le.2 hpoint), if_neg hlength, Literal.text, pointed,
      if_neg hdrop]
  · rw [Literal.rank, List.take_append_drop, ← Nat.mul_one (digitsValue _), ← Nat.pow_zero 10]
    apply nearestRank_digits hz
    rw [List.length_drop]
    omega

theorem exists_literal (h : d.digits ≠ []) :
    ∃ l : Literal, l.text = positional d.digits d.point ∧ l.rank = d.rank := by
  by_cases hpoint : d.point ≤ 0
  · exact exists_literal_below_one h hpoint
  · have hpos : 0 < d.point := Int.not_le.1 hpoint
    by_cases hlength : d.digits.length ≤ d.point.toNat
    · exact exists_literal_whole h hpos hlength
    · exact exists_literal_pointed h hpos hlength

end Decimal

namespace Binary64

variable {rank : Nat}

def sign (negative : Bool) : List Char := if negative then ['-'] else []

theorem exists_literal_rank (h : rank < infinityRank) :
    ∃ l : Literal, l.rank = rank ∧ l.text = if rank = 0 then ['0'] else
      Decimal.positional (Decimal.shortest .up rank).digits (Decimal.shortest .up rank).point := by
  by_cases hzero : rank = 0
  · refine ⟨⟨['0'], [], List.cons_ne_nil _ _, ?_, nofun⟩, ?_, ?_⟩
    · intro c hc
      rw [List.mem_singleton.1 hc]
      decide
    · rw [hzero]
      exact nearestRank_zero Nat.one_pos
    · rw [if_pos hzero]
      rfl
  · have hrank := Decimal.rank_shortest .up h
    have hpos : 0 < (Decimal.shortest .up rank).rank := by omega
    obtain ⟨l, htext, hvalue⟩ := Decimal.exists_literal (Decimal.digits_ne_nil hpos)
    refine ⟨l, hvalue.trans hrank, ?_⟩
    rw [if_neg hzero]
    exact htext

/-- A finite number is written as a literal that reads back as the number. -/
theorem exists_literal (x : Binary64) (h : x.IsFinite) :
    ∃ l : Literal, x.text = sign x.negative ++ l.text ∧
      ofLiteral x.negative l.whole l.fraction = x := by
  obtain ⟨l, hrank, htext⟩ := exists_literal_rank h
  refine ⟨l, ?_, ?_⟩
  · rw [htext]
    simp only [text, if_pos h, sign]
    cases x.negative <;> rfl
  · obtain ⟨negative, rank, hle⟩ := x
    simp only [ofLiteral, ofRatio, mk.injEq]
    exact ⟨trivial, hrank⟩

end Binary64

end Delegation
