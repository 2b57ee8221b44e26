import Calculator.Proofs.Decimal.Texts

namespace Calculator.Decimal

attribute [local instance (high)] instPowNat

theorem magnitude_eq_natCast_iff (bits whole : Nat) :
    magnitude bits = whole ↔
      (ratioOfBits bits).1 % (ratioOfBits bits).2 = 0 ∧
        (ratioOfBits bits).1 / (ratioOfBits bits).2 = whole := by
  have hden := ratioOfBits_pos bits
  have hdenq : ((ratioOfBits bits).2 : ℚ) ≠ 0 := by exact_mod_cast hden.ne'
  rw [← ratioOfBits_div, div_eq_iff hdenq]
  generalize (ratioOfBits bits).1 = num at *
  generalize (ratioOfBits bits).2 = den at *
  constructor
  · intro h
    have hproduct : num = whole * den := by exact_mod_cast h
    rw [hproduct]
    exact ⟨Nat.mul_mod_left .., Nat.mul_div_cancel _ hden⟩
  · rintro ⟨hrest, rfl⟩
    exact_mod_cast (Nat.div_mul_cancel (Nat.dvd_of_mod_eq_zero hrest)).symm

theorem integer?_of_whole {x : Float} (hfinite : magnitudeBits x < infinityBits) {whole : Nat}
    (h : magnitude (magnitudeBits x) = whole) :
    integer? x = some (if isNegative x then -(whole : Int) else whole) := by
  obtain ⟨hrest, hquotient⟩ := (magnitude_eq_natCast_iff _ _).mp h
  unfold integer?
  dsimp only
  rw [if_neg (Nat.not_le.mpr hfinite), if_pos hrest, hquotient]

theorem integer?_of_broken {x : Float} (h : ∀ whole : Nat, magnitude (magnitudeBits x) ≠ whole) :
    integer? x = none := by
  have hrest : ¬(ratioOfBits (magnitudeBits x)).1 % (ratioOfBits (magnitudeBits x)).2 = 0 :=
    fun hrest => h _ ((magnitude_eq_natCast_iff _ _).mpr ⟨hrest, rfl⟩)
  unfold integer?
  dsimp only
  rw [if_neg hrest]
  split_ifs <;> rfl

theorem integer?_of_infinite {x : Float} (h : infinityBits ≤ magnitudeBits x) :
    integer? x = none := by
  unfold integer?
  dsimp only
  rw [if_pos h]

theorem pos_of_broken {bits : Nat} (h : ∀ whole : Nat, magnitude bits ≠ whole) : 0 < bits :=
  Nat.pos_of_ne_zero fun hzero => h 0 ((magnitude_eq_zero_iff.mpr hzero).trans Nat.cast_zero.symm)

-- From `2 ^ 52` on all doubles are whole.
theorem exists_whole {bits : Nat} (h : 1075 * 2 ^ 52 ≤ bits) :
    ∃ whole : Nat, magnitude bits = whole := by
  obtain ⟨shift, hshift⟩ := Int.eq_ofNat_of_zero_le (a := scale bits) (by
    unfold scale
    omega)
  refine ⟨significand bits * 2 ^ shift, ?_⟩
  rw [magnitude, hshift, zpow_natCast]
  push_cast
  rfl

namespace Represents

variable {x : Scaled} {bits : Nat}

theorem value_pos (h : Represents x bits) : 0 < x.value :=
  (zpow_pos (by norm_num) _).trans_le h.le_value

theorem digits_ne_zero (h : Represents x bits) : x.digits ≠ 0 := by
  intro hnone
  have hpositive := h.value_pos
  rw [Scaled.value, hnone, Nat.cast_zero, zero_mul] at hpositive
  exact lt_irrefl _ hpositive

-- The decimal of a double that is not too small has few zeros behind its point.
theorem lt_point (h : Represents x bits) (hbits : 0 < bits) (hlow : 1 / 10000 ≤ magnitude bits) :
    -4 < (digitCount x.digits : Int) + x.exponent := by
  have hten : (1 : ℚ) < 10 := by norm_num
  have hsmallest : (1 : ℚ) / 10000 = 10 ^ (-4 : Int) := by norm_num
  have hleading : -4 < leading bits + 1 :=
    (zpow_lt_zpow_iff_right₀ hten).mp (hsmallest ▸ hlow.trans_lt (leading_bounds hbits).2)
  have hlt : (10 : ℚ) ^ (-4 : Int) < 10 ^ ((digitCount x.digits : Int) + x.exponent) := calc
    (10 : ℚ) ^ (-4 : Int) ≤ 10 ^ leading bits := zpow_le_zpow_right₀ hten.le (by omega)
    _ ≤ x.value := h.le_value
    _ < _ := (x.value_bounds h.digits_ne_zero).2
  exact (zpow_lt_zpow_iff_right₀ hten).mp hlt

-- That of a double that is not whole is below `10 ^ 16`, since what is rounded to a smaller double
-- is smaller.
theorem point_le (h : Represents x bits) (hbroken : ∀ whole : Nat, magnitude bits ≠ whole) :
    (digitCount x.digits : Int) + x.exponent ≤ 16 := by
  by_contra hlarge
  have hpower : magnitude (1075 * 2 ^ 52) = 2 ^ 52 := by
    norm_num [magnitude, significand, scale]
  have hlimit : magnitude (1075 * 2 ^ 52) ≤ (x.num : ℚ) / x.den := by
    rw [Scaled.num_div_den, hpower]
    calc (2 : ℚ) ^ 52 ≤ 10 ^ (16 : Int) := by norm_num
      _ ≤ 10 ^ ((digitCount x.digits : Int) + x.exponent - 1) :=
        zpow_le_zpow_right₀ (by norm_num) (by omega)
      _ ≤ x.value := (x.value_bounds h.digits_ne_zero).1
  obtain ⟨bits', hbits', hrounds⟩ := exists_roundsTo x.num x.den_pos
  have hreached := (roundsTo_magnitude (1075 * 2 ^ 52)).le hrounds hlimit
  have hwhole : 1075 * 2 ^ 52 ≤ bits := by
    rw [← h.nearestBits_eq, hbits', infinityBits]
    omega
  obtain ⟨whole, heq⟩ := exists_whole hwhole
  exact hbroken whole heq

end Represents

theorem layout_eq_positional {bits : Nat} (h : bits ≤ infinityBits)
    (hlow : 1 / 10000 ≤ magnitude bits) (hbroken : ∀ whole : Nat, magnitude bits ≠ whole) :
    (shortest bits).layout = positional (Nat.toDigits 10 (shortest bits).digits)
      (digitCount (shortest bits).digits + (shortest bits).exponent) := by
  have hbits := pos_of_broken hbroken
  have hrepresents := represents_shortest hbits h
  unfold Scaled.layout
  exact if_pos ⟨hrepresents.lt_point hbits hlow, hrepresents.point_le hbroken⟩

theorem answer_of_whole {x : Float} (hfinite : magnitudeBits x < infinityBits) {whole : Nat}
    (h : magnitude (magnitudeBits x) = whole) :
    answer x = String.ofList
      (if isNegative x && whole != 0 then '-' :: Nat.toDigits 10 whole
        else Nat.toDigits 10 whole) := by
  rw [answer, integer?_of_whole hfinite h]
  have hnatural : toString (whole : Int) = String.ofList (Nat.toDigits 10 whole) :=
    Nat.repr_eq_ofList_toDigits
  cases hsign : isNegative x with
  | false => exact hnatural
  | true =>
    rcases Nat.eq_zero_or_pos whole with rfl | hpositive
    · exact hnatural
    · obtain ⟨before, rfl⟩ : ∃ before, whole = before + 1 := ⟨whole - 1, by omega⟩
      have hnegative : toString (-((before + 1 : Nat) : Int)) = "-" ++ (before + 1).repr := rfl
      dsimp only
      rw [if_pos rfl, hnegative, Nat.repr_eq_ofList_toDigits, String.ext_iff]
      simp

theorem answer_of_broken {x : Float} (hfinite : magnitudeBits x < infinityBits)
    (h : ∀ whole : Nat, magnitude (magnitudeBits x) ≠ whole) :
    answer x = String.ofList
      (if isNegative x then '-' :: (shortest (magnitudeBits x)).layout
        else (shortest (magnitudeBits x)).layout) := by
  have hnan : x.isNaN = false := by
    rw [Bool.eq_false_iff, ne_eq, isNaN_iff]
    omega
  have hzero := (pos_of_broken h).ne'
  rw [answer, integer?_of_broken h]
  simp only [render, hnan, hzero, Nat.ne_of_lt hfinite, if_false]
  rfl

theorem answer_of_infinite {x : Float} (h : magnitudeBits x = infinityBits) :
    answer x = String.ofList (if isNegative x then ['-', 'i', 'n', 'f'] else ['i', 'n', 'f']) := by
  have hnan : x.isNaN = false := by
    rw [Bool.eq_false_iff, ne_eq, isNaN_iff]
    omega
  rw [answer, integer?_of_infinite h.ge]
  simp only [render, hnan, h, if_true]
  rfl

theorem beq_zero {x : Float} (h : magnitudeBits x = 0) : (zero == x) = true := by
  have hbeq : (zero == x) = zero.toModel.unpack.beq x.toModel.unpack := rfl
  have hzero : zero.toModel.unpack = datum .positive 0 := unpack_ofPattern (Nat.zero_le _)
  rw [hbeq, hzero, unpack_toModel (by omega), h]
  rfl

theorem beq_ofPattern {x : Float} (h : magnitudeBits x ≤ infinityBits)
    (hsign : isNegative x = false ∨ magnitudeBits x = 0) :
    (ofPattern (magnitudeBits x) == x) = true := by
  rcases hsign with hsign | hzero
  · rw [ofPattern_eq_self h hsign]
    exact beq_self h
  · rw [hzero]
    exact beq_zero hzero

theorem nearestBits_of_whole {bits whole : Nat} (h : bits ≤ infinityBits)
    (hwhole : magnitude bits = whole) : nearestBits whole 1 = bits := by
  refine nearestBits_eq one_pos h ?_
  rw [Nat.cast_one, div_one, ← hwhole]
  exact roundsTo_magnitude bits

theorem ofDigits_toDigits {bits whole : Nat} (h : bits ≤ infinityBits)
    (hwhole : magnitude bits = whole) : ofDigits (Nat.toDigits 10 whole) = ofPattern bits := by
  rw [ofDigits, digitsValue_toDigits]
  exact congrArg ofPattern (nearestBits_of_whole h hwhole)

-- Whole doubles have far fewer digits than are read.
theorem length_toDigits_le {bits whole : Nat} (h : bits < infinityBits)
    (hwhole : magnitude bits = whole) : (Nat.toDigits 10 whole).length ≤ 4300 := by
  have hbound : 2 ^ 1024 - 2 ^ 970 ≤ 10 ^ 309 := by decide +kernel
  have hfinite : nearestBits whole 1 ≠ infinityBits :=
    nearestBits_of_whole (Nat.le_of_lt h) hwhole ▸ Nat.ne_of_lt h
  have hlt : whole < 10 ^ 309 :=
    Nat.lt_of_lt_of_le (Nat.not_le.mp ((nearestBits_eq_infinityBits_iff whole).not.mp hfinite))
      hbound
  exact Nat.le_trans ((Nat.length_toDigits_le_iff (by decide) (by decide)).mpr hlt) (by decide)

theorem nearest_shortest {bits : Nat} (hbits : 0 < bits) (h : bits ≤ infinityBits) :
    nearest (shortest bits).num (shortest bits).den = ofPattern bits :=
  congrArg ofPattern (represents_shortest hbits h).nearestBits_eq

theorem ofString?_infinity (negative : Bool) :
    ofString? (String.ofList (if negative then ['-', 'i', 'n', 'f'] else ['i', 'n', 'f'])) =
      some (withSign negative infinity) := by
  have hplain : ∀ c ∈ ['-', 'i', 'n', 'f'], IsPlain c := fun c hc =>
    .of_mem (List.mem_append_right ['.', 'e', '+'] hc)
  have hword : word? ['i', 'n', 'f'] = some infinity := rfl
  cases negative with
  | false =>
    rw [if_neg Bool.false_ne_true, ofString?_of_plain (List.forall_mem_cons.mp hplain).2]
    have hsign : splitSign ['i', 'n', 'f'] = (false, ['i', 'n', 'f']) := rfl
    rw [hsign, hword]
    rfl
  | true =>
    rw [if_pos rfl, ofString?_of_plain hplain]
    have hsign : splitSign ['-', 'i', 'n', 'f'] = (true, ['i', 'n', 'f']) := rfl
    rw [hsign, hword]
    rfl

-- The answer that shows a double denotes it. Of a negative zero only the sign is lost.
theorem ofString?_answer {x : Float} (h : x.isNaN = false) :
    ∃ y, ofString? (answer x) = some y ∧ (y == x) = true := by
  have hbound : magnitudeBits x ≤ infinityBits := by
    rw [← Nat.not_lt, ← isNaN_iff, h]
    decide
  have hself := withSign_ofPattern x hbound
  rcases Nat.lt_or_eq_of_le hbound with hfinite | hinfinite
  · by_cases hwhole : ∃ whole : Nat, magnitude (magnitudeBits x) = whole
    · obtain ⟨whole, hwhole⟩ := hwhole
      have hreads := (Reads.digits (.toDigits whole)).ofString?_eq (isNegative x && whole != 0)
      rw [ofDigits_toDigits hbound hwhole] at hreads
      refine ⟨_, (answer_of_whole hfinite hwhole).symm ▸ hreads, ?_⟩
      -- a zero is shown without a sign
      rcases Nat.eq_zero_or_pos whole with rfl | hpositive
      · have hzero := magnitude_eq_zero_iff.mp (hwhole.trans Nat.cast_zero)
        have hnone : (isNegative x && 0 != 0) = false := Bool.and_false _
        rw [hnone, hzero]
        exact beq_zero hzero
      · have hsome : (whole != 0) = true := bne_iff_ne.mpr hpositive.ne'
        rw [hsome, Bool.and_true, hself]
        exact beq_self hbound
    · have hbroken : ∀ whole : Nat, magnitude (magnitudeBits x) ≠ whole :=
        fun whole heq => hwhole ⟨whole, heq⟩
      have hpositive := pos_of_broken hbroken
      have hreads := (reads_layout (shortest (magnitudeBits x))).ofString?_eq (isNegative x)
      rw [nearest_shortest hpositive hbound, hself] at hreads
      exact ⟨x, (answer_of_broken hfinite hbroken).symm ▸ hreads, beq_self hbound⟩
  · rw [hinfinite] at hself
    refine ⟨x, ?_, beq_self hbound⟩
    rw [answer_of_infinite hinfinite, ofString?_infinity]
    exact congrArg some hself

end Calculator.Decimal
