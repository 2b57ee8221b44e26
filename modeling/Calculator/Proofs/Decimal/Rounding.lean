import Calculator.Proofs.Decimal.Doubles

namespace Calculator.Decimal

attribute [local instance (high)] instPowNat

-- The pattern of `steps` steps on the grid of number `grid`, and its number. The last step of
-- a grid is the first of the next.
theorem magnitude_eq {grid steps : Nat} (hsteps : steps ≤ 2 ^ 53)
    (hgrid : grid = 0 ∨ 2 ^ 52 ≤ steps) :
    magnitude (grid * 2 ^ 52 + steps) = steps * 2 ^ ((grid : Int) - 1074) := by
  unfold magnitude
  rcases Nat.lt_or_eq_of_le hsteps with hbelow | rfl
  · have hsignificand : significand (grid * 2 ^ 52 + steps) = steps := by
      unfold significand
      split_ifs <;> omega
    have hscale : scale (grid * 2 ^ 52 + steps) = (grid : Int) - 1074 := by
      unfold scale
      omega
    rw [hsignificand, hscale]
  · have hsignificand : significand (grid * 2 ^ 52 + 2 ^ 53) = 2 ^ 52 := by
      unfold significand
      split_ifs <;> omega
    have hscale : scale (grid * 2 ^ 52 + 2 ^ 53) = 1 + ((grid : Int) - 1074) := by
      unfold scale
      omega
    rw [hsignificand, hscale, zpow_add₀ two_ne_zero]
    norm_num
    ring

theorem exists_grid (bits : Nat) :
    ∃ grid steps, bits = grid * 2 ^ 52 + steps ∧ steps < 2 ^ 53 ∧
      (grid = 0 ∨ 2 ^ 52 ≤ steps) := by
  rcases Nat.eq_zero_or_pos (bits / 2 ^ 52) with hzero | hpositive
  · exact ⟨0, bits, by omega, by omega, .inl rfl⟩
  · exact ⟨bits / 2 ^ 52 - 1, 2 ^ 52 + bits % 2 ^ 52, by omega, by omega, .inr (by omega)⟩

theorem magnitude_lt_succ (bits : Nat) : magnitude bits < magnitude (bits + 1) := by
  obtain ⟨grid, steps, rfl, hsteps, hgrid⟩ := exists_grid bits
  have hnext : grid * 2 ^ 52 + steps + 1 = grid * 2 ^ 52 + (steps + 1) := Nat.add_assoc ..
  rw [hnext, magnitude_eq (by omega) hgrid, magnitude_eq (by omega) (by omega)]
  have hunit : (0 : ℚ) < 2 ^ ((grid : Int) - 1074) := zpow_pos two_pos _
  push_cast
  linarith

theorem magnitude_strictMono : StrictMono magnitude := strictMono_nat_of_lt_succ magnitude_lt_succ

theorem magnitude_zero : magnitude 0 = 0 := by simp [magnitude, significand]

theorem magnitude_eq_zero_iff {bits : Nat} : magnitude bits = 0 ↔ bits = 0 :=
  ⟨fun h => magnitude_strictMono.injective (h.trans magnitude_zero.symm),
    fun h => h ▸ magnitude_zero⟩

theorem magnitude_nonneg (bits : Nat) : 0 ≤ magnitude bits :=
  magnitude_zero ▸ magnitude_strictMono.monotone (Nat.zero_le bits)

-- Halfway between a pattern's number and the next.
def midpoint (bits : Nat) : ℚ := (magnitude bits + magnitude (bits + 1)) / 2

theorem lt_midpoint (bits : Nat) : magnitude bits < midpoint bits := by
  have hnext := magnitude_lt_succ bits
  unfold midpoint
  linarith

theorem midpoint_lt (bits : Nat) : midpoint bits < magnitude (bits + 1) := by
  have hnext := magnitude_lt_succ bits
  unfold midpoint
  linarith

theorem midpoint_strictMono : StrictMono midpoint :=
  strictMono_nat_of_lt_succ fun bits => (midpoint_lt bits).trans (lt_midpoint (bits + 1))

theorem midpoint_eq {grid steps : Nat} (hsteps : steps < 2 ^ 53)
    (hgrid : grid = 0 ∨ 2 ^ 52 ≤ steps) :
    midpoint (grid * 2 ^ 52 + steps) = (steps + 1 / 2) * 2 ^ ((grid : Int) - 1074) := by
  have hnext : grid * 2 ^ 52 + steps + 1 = grid * 2 ^ 52 + (steps + 1) := Nat.add_assoc ..
  rw [midpoint, hnext, magnitude_eq (by omega) hgrid, magnitude_eq (by omega) (by omega)]
  push_cast
  ring

-- A number rounded to a pattern: it is not beyond the middle to a neighbour, and in the middle
-- only if the pattern is even.
structure RoundsTo (q : ℚ) (bits : Nat) : Prop where
  le_midpoint : q ≤ midpoint bits
  midpoint_le : ∀ previous, previous + 1 = bits → midpoint previous ≤ q
  even_of_eq : q = midpoint bits → bits % 2 = 0
  even_of_eq_previous : ∀ previous, previous + 1 = bits → q = midpoint previous → bits % 2 = 0

namespace RoundsTo

theorem le {q r : ℚ} {m n : Nat} (hq : RoundsTo q m) (hr : RoundsTo r n) (h : q ≤ r) :
    m ≤ n := by
  by_contra hlt
  obtain ⟨previous, rfl⟩ : ∃ previous, previous + 1 = m := ⟨m - 1, by omega⟩
  have horder : midpoint n ≤ midpoint previous := midpoint_strictMono.monotone (by omega)
  have hlow := hq.midpoint_le previous rfl
  have hhigh := hr.le_midpoint
  have hsame : n = previous := midpoint_strictMono.injective (by linarith)
  subst hsame
  have hodd := hq.even_of_eq_previous n rfl (by linarith)
  have heven := hr.even_of_eq (by linarith)
  omega

theorem unique {q : ℚ} {m n : Nat} (hm : RoundsTo q m) (hn : RoundsTo q n) : m = n :=
  Nat.le_antisymm (hm.le hn le_rfl) (hn.le hm le_rfl)

end RoundsTo

theorem roundsTo_magnitude (bits : Nat) : RoundsTo (magnitude bits) bits where
  le_midpoint := (lt_midpoint bits).le
  midpoint_le := by
    rintro previous rfl
    exact (midpoint_lt previous).le
  even_of_eq h := absurd h (lt_midpoint bits).ne
  even_of_eq_previous := by
    rintro previous rfl h
    exact absurd h (midpoint_lt previous).ne'

-- A number rounded to a whole one: it is at most a half away, and a half only from an even one.
structure RoundsToWhole (q : ℚ) (n : Nat) : Prop where
  le_above : q ≤ n + 1 / 2
  below_le : n - 1 / 2 ≤ q
  even_of_eq_above : q = n + 1 / 2 → n % 2 = 0
  even_of_eq_below : q = n - 1 / 2 → n % 2 = 0

namespace RoundsToWhole

variable {q : ℚ} {n m : Nat}

theorem le_of_lt (h : RoundsToWhole q n) (hq : q < m) : n ≤ m := by
  have hlow := h.below_le
  have hlt : (n : ℚ) < m + 1 := by linarith
  exact Nat.lt_succ_iff.mp (by exact_mod_cast hlt)

theorem ge_of_le (h : RoundsToWhole q n) (hq : m ≤ q) : m ≤ n := by
  have hhigh := h.le_above
  have hlt : (m : ℚ) < n + 1 := by linarith
  exact Nat.lt_succ_iff.mp (by exact_mod_cast hlt)

end RoundsToWhole

section Grid

variable {x : ℚ} {grid steps : Nat}

-- The middle above a step is half a step away, or beyond the numbers of the grid.
theorem lt_midpoint_or (hgrid : grid = 0 ∨ 2 ^ 52 ≤ steps) (hsteps : steps ≤ 2 ^ 53)
    (hx : x < 2 ^ 53) :
    x * 2 ^ ((grid : Int) - 1074) < midpoint (grid * 2 ^ 52 + steps) ∨
      midpoint (grid * 2 ^ 52 + steps) = (steps + 1 / 2) * 2 ^ ((grid : Int) - 1074) := by
  rcases Nat.lt_or_eq_of_le hsteps with hbelow | rfl
  · exact .inr (midpoint_eq hbelow hgrid)
  · have hmiddle := lt_midpoint (grid * 2 ^ 52 + 2 ^ 53)
    rw [magnitude_eq le_rfl hgrid] at hmiddle
    push_cast at hmiddle
    exact .inl ((mul_lt_mul_of_pos_right hx (zpow_pos two_pos _)).trans hmiddle)

-- The grid before has half the steps, so the middle below the first step of a grid is less than
-- half a step away.
theorem midpoint_lt_or (hgrid : grid = 0 ∨ 2 ^ 52 ≤ steps) (hsteps : steps ≤ 2 ^ 53)
    (hx : grid = 0 ∨ 2 ^ 52 ≤ x) {previous : Nat} (h : previous + 1 = grid * 2 ^ 52 + steps) :
    midpoint previous < x * 2 ^ ((grid : Int) - 1074) ∨
      midpoint previous = (steps - 1 / 2) * 2 ^ ((grid : Int) - 1074) := by
  by_cases hinner : 1 ≤ steps ∧ (grid = 0 ∨ 2 ^ 52 ≤ steps - 1)
  · obtain ⟨before, rfl⟩ : ∃ before, steps = before + 1 := ⟨steps - 1, by omega⟩
    obtain rfl : previous = grid * 2 ^ 52 + before := by omega
    have hinside : grid = 0 ∨ 2 ^ 52 ≤ before := by omega
    rw [midpoint_eq (by omega) hinside]
    push_cast
    exact .inr (by ring)
  · obtain rfl : steps = 2 ^ 52 := by omega
    have hreached : (2 : ℚ) ^ 52 ≤ x := hx.resolve_left (by omega)
    have hmiddle := midpoint_lt previous
    rw [h, magnitude_eq hsteps hgrid] at hmiddle
    push_cast at hmiddle
    exact .inl (hmiddle.trans_le
      (mul_le_mul_of_nonneg_right hreached (zpow_pos two_pos _).le))

-- The nearest step on the grid of a number gives the pattern to which it is rounded.
theorem roundsTo_of_grid (h : RoundsToWhole x steps) (hfirst : grid = 0 ∨ 2 ^ 52 ≤ x)
    (hlast : x < 2 ^ 53) : RoundsTo (x * 2 ^ ((grid : Int) - 1074)) (grid * 2 ^ 52 + steps) := by
  have hunit : (0 : ℚ) < 2 ^ ((grid : Int) - 1074) := zpow_pos two_pos _
  have hsteps : steps ≤ 2 ^ 53 := h.le_of_lt (by exact_mod_cast hlast)
  have hgrid : grid = 0 ∨ 2 ^ 52 ≤ steps :=
    hfirst.imp_right fun hreached => h.ge_of_le (by exact_mod_cast hreached)
  have hparity : steps % 2 = 0 → (grid * 2 ^ 52 + steps) % 2 = 0 := by omega
  have hnext := lt_midpoint_or hgrid hsteps hlast
  have hprevious {previous : Nat} := @midpoint_lt_or x grid steps hgrid hsteps hfirst previous
  refine ⟨?_, fun previous hp => ?_, fun heq => hparity ?_, fun previous hp heq => hparity ?_⟩
  · rcases hnext with hlt | hmiddle
    · exact hlt.le
    · rw [hmiddle]
      exact mul_le_mul_of_nonneg_right h.le_above hunit.le
  · rcases hprevious hp with hlt | hmiddle
    · exact hlt.le
    · rw [hmiddle]
      exact mul_le_mul_of_nonneg_right h.below_le hunit.le
  · rcases hnext with hlt | hmiddle
    · exact absurd heq hlt.ne
    · exact h.even_of_eq_above (mul_right_cancel₀ hunit.ne' (heq.trans hmiddle))
  · rcases hprevious hp with hlt | hmiddle
    · exact absurd heq hlt.ne'
    · exact h.even_of_eq_below (mul_right_cancel₀ hunit.ne' (heq.trans hmiddle))

end Grid

theorem zpow_eq_div (base : Nat) (h : 0 < base) (exponent : Int) :
    (base : ℚ) ^ exponent =
      ((base ^ exponent.toNat : Nat) : ℚ) / (base ^ (-exponent).toNat : Nat) := by
  have hbase : (base : ℚ) ≠ 0 := by exact_mod_cast h.ne'
  rcases Int.le_total 0 exponent with hsign | hsign
  · obtain ⟨n, rfl⟩ := Int.eq_ofNat_of_zero_le hsign
    have hnone : (-(n : Int)).toNat = 0 := by omega
    rw [hnone]
    simp
  · obtain ⟨n, hn⟩ := Int.eq_ofNat_of_zero_le (Int.neg_nonneg_of_nonpos hsign)
    obtain rfl : exponent = -(n : Int) := by omega
    have hnone : (-(n : Int)).toNat = 0 := by omega
    rw [hnone]
    simp

theorem div_zpow (base : Nat) (h : 0 < base) (exponent : Int) (num den : Nat) :
    ((num * base ^ (-exponent).toNat : Nat) : ℚ) / (den * base ^ exponent.toNat : Nat) =
      (num : ℚ) / den / (base : ℚ) ^ exponent := by
  rw [zpow_eq_div base h]
  push_cast
  rw [div_div_div_eq]

theorem scaled_le_iff {base : Nat} (h : 0 < base) (exponent : Int) (num : Nat) {den : Nat}
    (hden : 0 < den) :
    den * base ^ exponent.toNat ≤ num * base ^ (-exponent).toNat ↔
      (base : ℚ) ^ exponent ≤ (num : ℚ) / den := by
  have hbase : (0 : ℚ) < base := by exact_mod_cast h
  have hscaled : 0 < den * base ^ exponent.toNat := Nat.mul_pos hden (Nat.pow_pos h)
  rw [← one_le_div (zpow_pos hbase exponent), ← div_zpow base h,
    one_le_div (by exact_mod_cast hscaled), Nat.cast_le]

theorem roundHalfEven_bounds (a b : Nat) (hb : 0 < b) :
    2 * a ≤ b * (2 * roundHalfEven a b + 1) ∧ b * (2 * roundHalfEven a b) ≤ 2 * a + b ∧
      (2 * a = b * (2 * roundHalfEven a b + 1) → roundHalfEven a b % 2 = 0) ∧
      (b * (2 * roundHalfEven a b) = 2 * a + b → roundHalfEven a b % 2 = 0) := by
  have hsplit := Nat.div_add_mod a b
  have hrest := Nat.mod_lt a hb
  have hproduct : ∀ k, b * (2 * k) = 2 * (b * k) := fun k => Nat.mul_left_comm b 2 k
  unfold roundHalfEven
  dsimp only
  generalize a / b = floor at *
  generalize a % b = rest at *
  have heven : (floor + floor % 2) % 2 = 0 := by omega
  split_ifs with hlow hhigh
  · simp only [Nat.mul_add, hproduct]
    refine ⟨?_, ?_, ?_, ?_⟩ <;> omega
  · simp only [Nat.mul_add, hproduct]
    refine ⟨?_, ?_, ?_, ?_⟩ <;> omega
  · rcases Nat.mod_two_eq_zero_or_one floor with h | h <;>
      simp only [h, Nat.mul_add, hproduct] <;> refine ⟨?_, ?_, ?_, ?_⟩ <;> omega

-- The greatest power of a base that is at most a ratio, found from the greatest ones that are at
-- most its two parts. The difference of their exponents is the exponent or one too great.
theorem floorLog_bounds {base num den numLog denLog : Nat} (hbase : 0 < base)
    (hnumLow : base ^ numLog ≤ num) (hnumHigh : num < base ^ (numLog + 1))
    (hdenLow : base ^ denLog ≤ den) (hdenHigh : den < base ^ (denLog + 1)) {exponent log : Int}
    (hexponent : exponent = (numLog : Int) - denLog)
    (hlog : log = if den * base ^ exponent.toNat ≤ num * base ^ (-exponent).toNat then exponent
      else exponent - 1) :
    (base : ℚ) ^ log ≤ (num : ℚ) / den ∧ (num : ℚ) / den < (base : ℚ) ^ (log + 1) := by
  have hbaseq : (0 : ℚ) < base := by exact_mod_cast hbase
  have hden : 0 < den := Nat.lt_of_lt_of_le (Nat.pow_pos hbase) hdenLow
  have hdenq : (0 : ℚ) < den := by exact_mod_cast hden
  have hpos : ∀ e : Int, (0 : ℚ) < (base : ℚ) ^ e := fun e => zpow_pos hbaseq e
  have hhigh : (num : ℚ) / den < (base : ℚ) ^ (exponent + 1) := by
    rw [div_lt_iff₀ hdenq]
    calc (num : ℚ) < (base : ℚ) ^ ((numLog : Int) + 1) := by exact_mod_cast hnumHigh
      _ = (base : ℚ) ^ (exponent + 1) * (base : ℚ) ^ (denLog : Int) := by
        rw [← zpow_add₀ hbaseq.ne', hexponent]
        congr 1
        omega
      _ ≤ (base : ℚ) ^ (exponent + 1) * den :=
        mul_le_mul_of_nonneg_left (by exact_mod_cast hdenLow) (hpos _).le
  have hlow : (base : ℚ) ^ (exponent - 1) ≤ (num : ℚ) / den := by
    rw [le_div_iff₀ hdenq]
    calc (base : ℚ) ^ (exponent - 1) * den
        ≤ (base : ℚ) ^ (exponent - 1) * (base : ℚ) ^ ((denLog : Int) + 1) :=
          mul_le_mul_of_nonneg_left (by exact_mod_cast hdenHigh.le) (hpos _).le
      _ = (base : ℚ) ^ (numLog : Int) := by
        rw [← zpow_add₀ hbaseq.ne', hexponent]
        congr 1
        omega
      _ ≤ num := by exact_mod_cast hnumLow
  have hiff := scaled_le_iff hbase exponent num hden
  subst hlog
  split_ifs with h
  · exact ⟨hiff.mp h, hhigh⟩
  · rw [sub_add_cancel]
    exact ⟨hlow, not_le.mp (hiff.not.mp h)⟩

theorem floorLog2_bounds {num den : Nat} (hnum : num ≠ 0) (hden : den ≠ 0) :
    (2 : ℚ) ^ floorLog2 num den ≤ (num : ℚ) / den ∧
      (num : ℚ) / den < 2 ^ (floorLog2 num den + 1) :=
  floorLog_bounds two_pos (Nat.log2_self_le hnum) Nat.lt_log2_self (Nat.log2_self_le hden)
    Nat.lt_log2_self rfl rfl

-- The grid of a ratio is the one that counts it with 53 binary digits, or the first one if it is
-- too small for that.
theorem gridExponent_bounds {num den : Nat} (hnum : num ≠ 0) (hden : den ≠ 0) :
    (gridExponent num den = -1074 ∨
        (2 : ℚ) ^ 52 ≤ (num : ℚ) / den / 2 ^ gridExponent num den) ∧
      (num : ℚ) / den / 2 ^ gridExponent num den < 2 ^ 53 := by
  obtain ⟨hlow, hhigh⟩ := floorLog2_bounds hnum hden
  have hunit : (0 : ℚ) < 2 ^ gridExponent num den := zpow_pos two_pos _
  have hpower : ∀ n : Nat, (2 : ℚ) ^ n * 2 ^ gridExponent num den =
      2 ^ ((n : Int) + gridExponent num den) := fun n => by
    rw [zpow_add₀ two_ne_zero, zpow_natCast]
  rw [le_div_iff₀ hunit, div_lt_iff₀ hunit, hpower, hpower]
  have hgrid : gridExponent num den = -1074 ∨
      gridExponent num den = floorLog2 num den - 52 := by
    unfold gridExponent
    omega
  have hsmall : floorLog2 num den - 52 ≤ gridExponent num den := Int.le_max_right ..
  refine ⟨hgrid.imp_right fun heq => ?_, ?_⟩
  · exact (zpow_le_zpow_right₀ one_le_two (by omega)).trans hlow
  · exact hhigh.trans_le (zpow_le_zpow_right₀ one_le_two (by omega))

theorem roundHalfEven_roundsTo (a : Nat) {b : Nat} (hb : 0 < b) :
    RoundsToWhole ((a : ℚ) / b) (roundHalfEven a b) := by
  obtain ⟨hup, hdown, hupEven, hdownEven⟩ := roundHalfEven_bounds a b hb
  have hbq : (0 : ℚ) < b := by exact_mod_cast hb
  have hupq : 2 * (a : ℚ) ≤ b * (2 * roundHalfEven a b + 1) := by exact_mod_cast hup
  have hdownq : (b : ℚ) * (2 * roundHalfEven a b) ≤ 2 * a + b := by exact_mod_cast hdown
  refine ⟨?_, ?_, fun h => hupEven ?_, fun h => hdownEven ?_⟩
  · rw [div_le_iff₀ hbq]
    linarith
  · rw [le_div_iff₀ hbq]
    linarith
  · rw [div_eq_iff hbq.ne'] at h
    have hq : 2 * (a : ℚ) = b * (2 * roundHalfEven a b + 1) := by linarith
    exact_mod_cast hq
  · rw [div_eq_iff hbq.ne'] at h
    have hq : (b : ℚ) * (2 * roundHalfEven a b) = 2 * a + b := by linarith
    exact_mod_cast hq

-- A ratio is rounded on its grid to the nearest step, and this is the pattern it is rounded to.
theorem exists_roundsTo (num : Nat) {den : Nat} (hden : 0 < den) :
    ∃ bits, nearestBits num den = min infinityBits bits ∧ RoundsTo ((num : ℚ) / den) bits := by
  by_cases hnum : num = 0
  · refine ⟨0, by simp [nearestBits, hnum], ?_⟩
    have hzero := roundsTo_magnitude 0
    rw [magnitude_zero] at hzero
    rwa [hnum, Nat.cast_zero, zero_div]
  obtain ⟨hfirst, hlast⟩ := gridExponent_bounds hnum hden.ne'
  have hrounds := roundHalfEven_roundsTo (num * 2 ^ (-gridExponent num den).toNat)
    (Nat.mul_pos hden (Nat.two_pow_pos (gridExponent num den).toNat))
  rw [div_zpow 2 two_pos] at hrounds
  have hbits : nearestBits num den = min infinityBits
      ((gridExponent num den + 1074).toNat * 2 ^ 52 +
        roundHalfEven (num * 2 ^ (-gridExponent num den).toNat)
          (den * 2 ^ (gridExponent num den).toNat)) := if_neg hnum
  refine ⟨_, hbits, ?_⟩
  -- the grids are counted from the first one on
  have hlowest : -1074 ≤ gridExponent num den := Int.le_max_left ..
  generalize gridExponent num den = exponent at *
  obtain ⟨grid, hgrid⟩ := Int.eq_ofNat_of_zero_le (a := exponent + 1074) (by omega)
  obtain rfl : exponent = (grid : Int) - 1074 := by omega
  have hcount : ((grid : Int) - 1074 + 1074).toNat = grid := by omega
  have hunit : ((2 : ℚ) ^ ((grid : Int) - 1074)) ≠ 0 := zpow_ne_zero _ two_ne_zero
  have hstart : grid = 0 ∨ (2 : ℚ) ^ 52 ≤ (num : ℚ) / den / 2 ^ ((grid : Int) - 1074) :=
    hfirst.imp_left fun h => by omega
  have hgridded := roundsTo_of_grid hrounds hstart hlast
  rw [Nat.cast_ofNat, div_mul_cancel₀ _ hunit] at hgridded
  rwa [hcount]

end Calculator.Decimal
