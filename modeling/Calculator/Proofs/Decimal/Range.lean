import Calculator.Decimal.Numeral
import Calculator.Proofs.Decimal.Nearness

namespace Calculator.Decimal

theorem two_pow_sub_le_iff {m top : Nat} (h : m ≤ top) (n : Nat) :
    (2 : ℚ) ^ top - 2 ^ m ≤ n ↔ 2 ^ top - 2 ^ m ≤ n := by
  have hle : 2 ^ m ≤ 2 ^ top := Nat.pow_le_pow_right (by decide) h
  rw [← @Nat.cast_le ℚ, Nat.cast_sub hle]
  push_cast
  rfl

theorem two_pow_sub_le_ten_zpow {top reached : Nat} (h : 2 ^ top ≤ 10 ^ reached) (m : Nat) :
    (2 : ℚ) ^ top - 2 ^ m ≤ 10 ^ (reached : Int) :=
  (sub_le_self _ (by positivity)).trans (by exact_mod_cast h)

theorem ten_zpow_neg_le {low reached : Nat} (h : 2 ^ low ≤ 10 ^ reached) :
    (10 : ℚ) ^ (-(reached : Int)) ≤ 2 ^ (-(low : Int)) := by
  rw [zpow_neg, zpow_neg, zpow_natCast, zpow_natCast]
  exact inv_anti₀ (by positivity) (by exact_mod_cast h)

attribute [local instance (high)] instPowNat

theorem nearestBits_eq {num den bits : Nat} (hden : 0 < den) (h : bits ≤ infinityBits)
    (hrounds : RoundsTo ((num : ℚ) / den) bits) : nearestBits num den = bits := by
  obtain ⟨bits', hbits', hrounds'⟩ := exists_roundsTo num hden
  rw [hbits', hrounds'.unique hrounds, Nat.min_eq_right h]

theorem nearestBits_eq_infinityBits_iff (n : Nat) :
    nearestBits n 1 = infinityBits ↔ 2 ^ 1024 - 2 ^ 970 ≤ n := by
  obtain ⟨bits, hbits, hrounds⟩ := exists_roundsTo n one_pos
  rw [hbits, min_eq_left_iff, hrounds.infinityBits_le_iff, Nat.cast_one, div_one]
  exact two_pow_sub_le_iff (by decide) n

-- Exactly the integers that are halfway to the next power of two or beyond have no double.
theorem ofInt?_eq_none_iff (n : Int) : ofInt? n = none ↔ 2 ^ 1024 - 2 ^ 970 ≤ n.natAbs := by
  rw [← nearestBits_eq_infinityBits_iff]
  simp [ofInt?]

-- Up to half of the smallest positive double numbers are rounded to zero.
theorem nearest_of_tiny {num den : Nat} (hden : 0 < den)
    (h : (num : ℚ) / den ≤ 2 ^ (-1075 : Int)) : nearest num den = zero := by
  have hhalf : (2 : ℚ) ^ (-1075 : Int) = midpoint 0 := by
    have hunit : (2 : ℚ) ^ (-1 + -1074 : Int) = 1 / 2 * 2 ^ (-1074 : Int) := by
      rw [zpow_add₀ two_ne_zero, zpow_neg_one, one_div]
    have hmiddle := @midpoint_eq 0 0 (by decide) (.inl rfl)
    simp only [Nat.zero_mul, Nat.cast_zero, zero_add, zero_sub] at hmiddle
    exact hunit.trans hmiddle.symm
  have hrounds : RoundsTo ((num : ℚ) / den) 0 :=
    ⟨hhalf ▸ h, fun _ hnone => absurd hnone (Nat.succ_ne_zero _), fun _ => rfl, fun _ _ _ => rfl⟩
  exact congrArg ofPattern (nearestBits_eq hden (Nat.zero_le _) hrounds)

theorem digitCount_pos (n : Nat) : 0 < digitCount n := Nat.length_toDigits_pos

theorem lt_pow_digitCount (n : Nat) : n < 10 ^ digitCount n :=
  (Nat.length_toDigits_le_iff (by decide) (digitCount_pos n)).mp le_rfl

theorem pow_digitCount_le {n : Nat} (h : n ≠ 0) : 10 ^ (digitCount n - 1) ≤ n := by
  by_contra hlt
  rcases Nat.eq_zero_or_pos (digitCount n - 1) with hone | hmore
  · rw [hone] at hlt
    exact h (by omega)
  · have hle := (Nat.length_toDigits_le_iff (by decide) hmore).mpr (Nat.not_le.mp hlt)
    have hcount := digitCount_pos n
    unfold digitCount at *
    omega

namespace Scaled

-- The number that a scaled one is.
def value (x : Scaled) : ℚ := x.digits * 10 ^ x.exponent

theorem den_pos (x : Scaled) : 0 < x.den := Nat.pow_pos (by decide)

theorem num_div_den (x : Scaled) : (x.num : ℚ) / x.den = x.value := by
  have hpower := zpow_eq_div 10 (by decide) x.exponent
  rw [num, den, value, Nat.cast_mul, mul_div_assoc, ← hpower]
  norm_num

theorem value_bounds (x : Scaled) (h : x.digits ≠ 0) :
    (10 : ℚ) ^ (digitCount x.digits + x.exponent - 1) ≤ x.value ∧
      x.value < 10 ^ (digitCount x.digits + x.exponent) := by
  have hcount := digitCount_pos x.digits
  have hunit : (0 : ℚ) < 10 ^ x.exponent := zpow_pos (by norm_num) _
  have hsplit : ∀ n : Nat, (10 : ℚ) ^ ((n : Int) + x.exponent) = (10 ^ n : Nat) * 10 ^ x.exponent :=
    fun n => by
      rw [zpow_add₀ (by norm_num), zpow_natCast]
      push_cast
      rfl
  have hshift : (digitCount x.digits : Int) + x.exponent - 1 =
      ((digitCount x.digits - 1 : Nat) : Int) + x.exponent := by omega
  rw [hshift, hsplit, hsplit, value]
  exact ⟨mul_le_mul_of_nonneg_right (by exact_mod_cast pow_digitCount_le h) hunit.le,
    mul_lt_mul_of_pos_right (by exact_mod_cast lt_pow_digitCount x.digits) hunit⟩

end Scaled

-- The limits beyond which a scaled number is not rounded do not matter.
theorem ofScaled_eq_nearest (x : Scaled) : ofScaled x = nearest x.num x.den := by
  unfold ofScaled
  split_ifs with hnone hhigh hlow
  · simp [Scaled.num, hnone, nearest, nearestBits, zero]
  · have hcount := digitCount_pos x.digits
    have hreached : (10 : ℚ) ^ ((311 : Nat) : Int) ≤ x.value := calc
      (10 : ℚ) ^ ((311 : Nat) : Int) ≤ 10 ^ ((digitCount x.digits : Int) + x.exponent - 1) :=
        zpow_le_zpow_right₀ (by norm_num) (by omega)
      _ ≤ x.value := (x.value_bounds hnone).1
    have hlimit : 2 ^ 1024 ≤ 10 ^ 311 := by decide +kernel
    have hbeyond := (two_pow_sub_le_ten_zpow hlimit 970).trans hreached
    rw [← x.num_div_den] at hbeyond
    exact ((isNearest_nearest x.num x.den_pos).eq_infinity hbeyond).symm
  · have hbelow : x.value ≤ (10 : ℚ) ^ (-((331 : Nat) : Int)) := calc
      x.value ≤ 10 ^ ((digitCount x.digits : Int) + x.exponent) := (x.value_bounds hnone).2.le
      _ ≤ (10 : ℚ) ^ (-((331 : Nat) : Int)) := zpow_le_zpow_right₀ (by norm_num) (by omega)
    have hlimit : 2 ^ 1075 ≤ 10 ^ 331 := by decide +kernel
    have htiny := hbelow.trans (ten_zpow_neg_le hlimit)
    rw [← x.num_div_den] at htiny
    exact (nearest_of_tiny x.den_pos htiny).symm
  · rfl

end Calculator.Decimal
