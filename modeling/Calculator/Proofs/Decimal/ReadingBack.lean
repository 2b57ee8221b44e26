import Calculator.Proofs.Decimal.Range

namespace Calculator.Decimal

attribute [local instance (high)] instPowNat

namespace Scaled

theorem value_trim (x : Scaled) (fuel : Nat) : (x.trim fuel).value = x.value := by
  induction fuel generalizing x with
  | zero => rfl
  | succ fuel ih =>
    rw [trim]
    split_ifs with h
    · rw [ih, value, value, zpow_add_one₀ (by norm_num)]
      have hdigits : (x.digits : ℚ) = (x.digits / 10 : Nat) * 10 := by
        exact_mod_cast (Nat.div_mul_cancel (Nat.dvd_of_mod_eq_zero h.2)).symm
      rw [hdigits]
      dsimp only
      ring
    · rfl

end Scaled

theorem ratioOfBits_pos (bits : Nat) : 0 < (ratioOfBits bits).2 := Nat.two_pow_pos _

theorem ratioOfBits_div (bits : Nat) :
    ((ratioOfBits bits).1 : ℚ) / (ratioOfBits bits).2 = magnitude bits := by
  have hpower := zpow_eq_div 2 (by decide) (scale bits)
  have hratio : ratioOfBits bits =
      (significand bits * 2 ^ (scale bits).toNat, 2 ^ (-scale bits).toNat) := rfl
  rw [hratio, magnitude, Nat.cast_mul, mul_div_assoc, ← hpower]
  norm_num

-- The power of ten that `floorLog10` finds is at most the ratio, and the next one is greater.
theorem floorLog10_bounds {num den : Nat} (hnum : num ≠ 0) (hden : den ≠ 0) :
    (10 : ℚ) ^ floorLog10 num den ≤ (num : ℚ) / den ∧
      (num : ℚ) / den < 10 ^ (floorLog10 num den + 1) := by
  have hnext : ∀ n, n < 10 ^ (digitCount n - 1 + 1) := fun n => by
    rw [Nat.sub_add_cancel (digitCount_pos n)]
    exact lt_pow_digitCount n
  have hnumCount := digitCount_pos num
  have hdenCount := digitCount_pos den
  exact floorLog_bounds (by decide) (pow_digitCount_le hnum) (hnext num) (pow_digitCount_le hden)
    (hnext den) (by omega) rfl

-- The exponent of the greatest power of ten that is at most the number of a pattern.
def leading (bits : Nat) : Int := floorLog10 (ratioOfBits bits).1 (ratioOfBits bits).2

theorem leading_bounds {bits : Nat} (h : 0 < bits) :
    (10 : ℚ) ^ leading bits ≤ magnitude bits ∧ magnitude bits < 10 ^ (leading bits + 1) := by
  have hnum : (ratioOfBits bits).1 ≠ 0 :=
    Nat.mul_ne_zero (significand_eq_zero_iff.not.mpr h.ne') (Nat.two_pow_pos _).ne'
  have hbounds := floorLog10_bounds hnum (ratioOfBits_pos bits).ne'
  rw [ratioOfBits_div] at hbounds
  exact hbounds

theorem neighbour?_eq_some {bits num den : Nat} {exponent : Int} {x : Scaled}
    (h : neighbour? bits num den exponent = some x) :
    nearestBits x.num x.den = bits ∧ x.exponent = exponent ∧
      num * 10 ^ (-exponent).toNat / (den * 10 ^ exponent.toNat) ≤ x.digits := by
  unfold neighbour? at h
  dsimp only at h
  split_ifs at h <;> cases h <;> exact ⟨‹_›, rfl, by simp⟩

-- A decimal that is rounded to a pattern and has a digit at least where the pattern's number
-- begins.
structure Represents (x : Scaled) (bits : Nat) : Prop where
  nearestBits_eq : nearestBits x.num x.den = bits
  le_value : (10 : ℚ) ^ leading bits ≤ x.value

namespace Represents

variable {bits : Nat}

theorem trim {x : Scaled} (h : Represents x bits) (fuel : Nat) :
    Represents (x.trim fuel) bits := by
  have hvalue := x.value_trim fuel
  refine ⟨?_, hvalue ▸ h.le_value⟩
  rw [← x.num_div_den, ← (x.trim fuel).num_div_den] at hvalue
  rw [← h.nearestBits_eq]
  exact (nearestBits_mono (Scaled.den_pos _) (Scaled.den_pos _) hvalue.le).antisymm
    (nearestBits_mono (Scaled.den_pos _) (Scaled.den_pos _) hvalue.ge)

-- A neighbour is not less than the power of ten in front of the number, which is on every grid.
theorem of_neighbour? (hbits : 0 < bits) {more : Nat} {x : Scaled}
    (h : neighbour? bits (ratioOfBits bits).1 (ratioOfBits bits).2 (leading bits - more) =
      some x) : Represents x bits := by
  obtain ⟨hlow, _⟩ := leading_bounds hbits
  generalize hexponent : leading bits - more = exponent at h
  -- in the neighbour's unit the number is at least this power of ten, which is whole
  have hunit : (0 : ℚ) < 10 ^ exponent := zpow_pos (by norm_num) _
  have hsplit : (10 : ℚ) ^ leading bits = 10 ^ more * 10 ^ exponent := by
    rw [← zpow_natCast, ← zpow_add₀ (by norm_num)]
    congr 1
    omega
  have hscaled : 0 < (ratioOfBits bits).2 * 10 ^ exponent.toNat :=
    Nat.mul_pos (ratioOfBits_pos bits) (Nat.pow_pos (by decide))
  have hratio : ((ratioOfBits bits).1 * 10 ^ (-exponent).toNat : Nat) /
      (((ratioOfBits bits).2 * 10 ^ exponent.toNat : Nat) : ℚ) =
        magnitude bits / 10 ^ exponent := by
    rw [← ratioOfBits_div]
    exact div_zpow 10 (by decide) exponent _ _
  have hle : (10 : ℚ) ^ more ≤ magnitude bits / 10 ^ exponent := by
    rw [le_div_iff₀ hunit, ← hsplit]
    exact hlow
  rw [← hratio, le_div_iff₀ (by exact_mod_cast hscaled)] at hle
  obtain ⟨hnearest, rfl, hdigits⟩ := neighbour?_eq_some h
  have hfloor : 10 ^ more ≤ x.digits := by
    refine Nat.le_trans ?_ hdigits
    rw [Nat.le_div_iff_mul_le hscaled]
    exact_mod_cast hle
  refine ⟨hnearest, ?_⟩
  rw [hsplit, Scaled.value]
  exact mul_le_mul_of_nonneg_right (by exact_mod_cast hfloor) hunit.le

end Represents

theorem represents_exactDecimal {bits : Nat} (hbits : 0 < bits) (h : bits ≤ infinityBits) :
    Represents (exactDecimal (ratioOfBits bits).1 (ratioOfBits bits).2) bits := by
  have hvalue : (exactDecimal (ratioOfBits bits).1 (ratioOfBits bits).2).value =
      magnitude bits := by
    rw [← ratioOfBits_div]
    obtain ⟨k, hk⟩ : ∃ k, (ratioOfBits bits).2 = 2 ^ k := ⟨_, rfl⟩
    rw [hk, exactDecimal, Nat.log2_two_pow, Scaled.value]
    have hten : (10 : ℚ) ^ k = 5 ^ k * 2 ^ k := by rw [← mul_pow]; norm_num
    push_cast
    rw [zpow_neg, zpow_natCast, hten]
    field_simp
  refine ⟨nearestBits_eq (Scaled.den_pos _) h ?_, hvalue ▸ (leading_bounds hbits).1⟩
  rw [Scaled.num_div_den, hvalue]
  exact roundsTo_magnitude bits

-- The printed decimal of a pattern is rounded to it.
theorem represents_shortest {bits : Nat} (hbits : 0 < bits) (h : bits ≤ infinityBits) :
    Represents (shortest bits) bits := by
  generalize hfound : ((List.range 17).findSome? fun (more : Nat) =>
    neighbour? bits (ratioOfBits bits).1 (ratioOfBits bits).2 (leading bits - more)) = found
  generalize hexact : exactDecimal (ratioOfBits bits).1 (ratioOfBits bits).2 = exact
  have hshortest : shortest bits =
      (found.getD exact).trim (digitCount (found.getD exact).digits) := by
    rw [← hfound, ← hexact]
    rfl
  rw [hshortest]
  refine Represents.trim ?_ _
  subst hexact
  cases found with
  | none => exact represents_exactDecimal hbits h
  | some x =>
    obtain ⟨more, _, hneighbour⟩ := List.exists_of_findSome?_eq_some hfound
    exact .of_neighbour? hbits hneighbour

end Calculator.Decimal
