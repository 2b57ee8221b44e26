import Calculator.Proofs.Decimal.Rounding

namespace Calculator.Decimal

attribute [local instance (high)] instPowNat

-- Whether the last binary digit of a double is zero.
def HasEvenSignificand (x : Float) : Prop :=
  match x.toModel.unpack with
  | .finite _ significand _ _ => significand % 2 = 0
  | .zero _ | .infinity _ | .notANumber => True

structure IsNearest (q : ℚ) (x : Float) : Prop where
  isNegative_eq : isNegative x = false
  eq_infinity : 2 ^ 1024 - 2 ^ 970 ≤ q → x = infinity
  exists_number : q < 2 ^ 1024 - 2 ^ 970 → ∃ value, number? x = some value ∧
    ∀ y other, number? y = some other → |q - value| ≤ |q - other| ∧
      (|q - value| = |q - other| → value ≠ other → HasEvenSignificand x)

theorem significand_mod_two (bits : Nat) : significand bits % 2 = bits % 2 := by
  unfold significand
  split_ifs <;> omega

theorem hasEvenSignificand_ofPattern {bits : Nat} (h : bits < infinityBits) (heven : bits % 2 = 0) :
    HasEvenSignificand (ofPattern bits) := by
  have hsame := significand_mod_two bits
  unfold HasEvenSignificand
  rw [unpack_ofPattern (Nat.le_of_lt h), datum]
  split_ifs
  · trivial
  · exact hsame.trans heven
  · trivial

section Middle

variable {q a b c : ℚ}

-- A number up to the middle of two is nearer to the lower one than to the upper one and to all
-- beyond it.
theorem abs_sub_le_of_le_middle (hab : a < b) (hbc : b ≤ c) (hq : q ≤ (a + b) / 2) :
    |q - a| ≤ |q - c| ∧ (|q - a| = |q - c| → q = (a + b) / 2) := by
  have hother : b - q ≤ |q - c| := (by linarith : b - q ≤ -(q - c)).trans (neg_le_abs _)
  have hown : |q - a| ≤ b - q := abs_le.mpr ⟨by linarith, by linarith⟩
  refine ⟨hown.trans hother, fun heq => ?_⟩
  have htight : b - q ≤ |q - a| := by linarith
  rcases le_abs.mp htight with hcase | hcase <;> linarith

theorem abs_sub_le_of_middle_le (hab : a < b) (hca : c ≤ a) (hq : (a + b) / 2 ≤ q) :
    |q - b| ≤ |q - c| ∧ (|q - b| = |q - c| → q = (a + b) / 2) := by
  have hmirrored : -q ≤ (-b + -a) / 2 := by linarith
  obtain ⟨hle, heq⟩ := abs_sub_le_of_le_middle (neg_lt_neg hab) (neg_le_neg hca) hmirrored
  rw [neg_sub_neg, neg_sub_neg, abs_sub_comm b, abs_sub_comm c] at hle heq
  exact ⟨hle, fun h => by linarith [heq h]⟩

end Middle

namespace RoundsTo

variable {q : ℚ} {bits : Nat}

theorem abs_sub_le (h : RoundsTo q bits) {m : Nat} (hne : m ≠ bits) :
    |q - magnitude bits| ≤ |q - magnitude m| ∧
      (|q - magnitude bits| = |q - magnitude m| → bits % 2 = 0) := by
  have hmono := magnitude_strictMono.monotone
  rcases Nat.lt_or_gt_of_ne hne with hlt | hgt
  · obtain ⟨previous, rfl⟩ : ∃ previous, previous + 1 = bits := ⟨bits - 1, by omega⟩
    obtain ⟨hle, htie⟩ := abs_sub_le_of_middle_le (magnitude_lt_succ previous)
      (hmono (Nat.le_of_lt_succ hlt)) (h.midpoint_le previous rfl)
    exact ⟨hle, fun heq => h.even_of_eq_previous previous rfl (htie heq)⟩
  · obtain ⟨hle, htie⟩ := abs_sub_le_of_le_middle (magnitude_lt_succ bits) (hmono hgt)
      h.le_midpoint
    exact ⟨hle, fun heq => h.even_of_eq (htie heq)⟩

theorem abs_sub_neg_le (h : RoundsTo q bits) (hq : 0 ≤ q) (m : Nat) :
    |q - magnitude bits| ≤ |q - -magnitude m| ∧
      (|q - magnitude bits| = |q - -magnitude m| → magnitude bits ≠ -magnitude m →
        bits % 2 = 0) := by
  have hnonneg := magnitude_nonneg m
  have hopposite : |q - magnitude m| ≤ |q - -magnitude m| := by
    rw [sub_neg_eq_add, abs_of_nonneg (add_nonneg hq hnonneg)]
    exact abs_le.mpr ⟨by linarith, by linarith⟩
  by_cases hm : m = bits
  · subst hm
    refine ⟨hopposite, fun heq hne => ?_⟩
    rw [sub_neg_eq_add, abs_of_nonneg (add_nonneg hq hnonneg)] at heq
    have hzero : q = 0 := by
      rcases eq_or_eq_neg_of_abs_eq heq with hsign | hsign
      · exact absurd (by linarith) hne
      · linarith
    have hbits := h.unique (hzero.trans magnitude_zero.symm ▸ roundsTo_magnitude 0)
    rw [hbits]
  · obtain ⟨hle, heven⟩ := h.abs_sub_le hm
    exact ⟨hle.trans hopposite, fun heq _ => heven (hle.antisymm (heq ▸ hopposite))⟩

-- The numbers from which on a number is rounded beyond the finite patterns.
theorem infinityBits_le_iff (h : RoundsTo q bits) :
    infinityBits ≤ bits ↔ 2 ^ 1024 - 2 ^ 970 ≤ q := by
  have hlast : infinityBits - 1 = 2045 * 2 ^ 52 + (2 ^ 53 - 1) := by decide
  have hthreshold : midpoint (infinityBits - 1) = 2 ^ 1024 - 2 ^ 970 := by
    have hpower : ∀ top m : Nat, top = m + 54 →
        (((2 ^ 53 - 1 : Nat) : ℚ) + 1 / 2) * 2 ^ ((m : Int) + 1) = 2 ^ top - 2 ^ m := by
      rintro _ m rfl
      rw [pow_add, zpow_add₀ two_ne_zero, zpow_natCast]
      norm_num
      ring
    rw [hlast, midpoint_eq (by decide) (by decide), ← hpower 1024 970 rfl]
    norm_num
  rw [← hthreshold]
  constructor
  · intro hle
    obtain ⟨previous, rfl⟩ : ∃ previous, previous + 1 = bits := ⟨bits - 1, by
      unfold infinityBits at hle
      omega⟩
    exact (midpoint_strictMono.monotone (by omega)).trans (h.midpoint_le previous rfl)
  · intro hle
    by_contra hlt
    -- the middle behind the last finite pattern is not rounded to it, since it is odd
    have horder : midpoint bits ≤ midpoint (infinityBits - 1) :=
      midpoint_strictMono.monotone (by omega)
    have hsame : bits = infinityBits - 1 :=
      midpoint_strictMono.injective (by linarith [h.le_midpoint])
    have heven := h.even_of_eq (by linarith [h.le_midpoint])
    unfold infinityBits at hsame
    omega

end RoundsTo

theorem eq_magnitude_or_neg {x : Float} {q : ℚ} (h : number? x = some q) :
    q = magnitude (magnitudeBits x) ∨ q = -magnitude (magnitudeBits x) := by
  rcases Nat.lt_or_ge (magnitudeBits x) infinityBits with hfinite | hinfinite
  · rw [number?_eq_some hfinite, Option.some_inj] at h
    subst h
    cases isNegative x
    · exact .inl rfl
    · exact .inr rfl
  · rw [number?_eq_none hinfinite] at h
    cases h

theorem isNearest_nearest (num : Nat) {den : Nat} (hden : 0 < den) :
    IsNearest ((num : ℚ) / den) (nearest num den) := by
  obtain ⟨bits, hbits, hrounds⟩ := exists_roundsTo num hden
  have hq : (0 : ℚ) ≤ (num : ℚ) / den := by positivity
  have hnearest : nearest num den = ofPattern (min infinityBits bits) := congrArg ofPattern hbits
  rw [hnearest]
  refine ⟨isNegative_ofPattern (Nat.min_le_left ..), fun hle => ?_, fun hlt => ?_⟩
  · rw [Nat.min_eq_left (hrounds.infinityBits_le_iff.mpr hle)]
    rfl
  · have hfinite := Nat.not_le.mp (hrounds.infinityBits_le_iff.not.mpr (not_le.mpr hlt))
    rw [Nat.min_eq_right (Nat.le_of_lt hfinite)]
    refine ⟨_, number?_ofPattern hfinite, fun y other hother => ?_⟩
    have heven := hasEvenSignificand_ofPattern hfinite
    rcases eq_magnitude_or_neg hother with rfl | rfl
    · by_cases hsame : magnitudeBits y = bits
      · rw [hsame]
        exact ⟨le_rfl, fun _ hne => absurd rfl hne⟩
      · obtain ⟨hle, htie⟩ := hrounds.abs_sub_le hsame
        exact ⟨hle, fun heq _ => heven (htie heq)⟩
    · obtain ⟨hle, htie⟩ := hrounds.abs_sub_neg_le hq (magnitudeBits y)
      exact ⟨hle, fun heq hne => heven (htie heq hne)⟩

-- Equal ratios have one nearest double, and a greater ratio never has a smaller one.
theorem nearestBits_mono {num den num' den' : Nat} (hden : 0 < den) (hden' : 0 < den')
    (h : (num : ℚ) / den ≤ (num' : ℚ) / den') : nearestBits num den ≤ nearestBits num' den' := by
  obtain ⟨bits, hbits, hrounds⟩ := exists_roundsTo num hden
  obtain ⟨bits', hbits', hrounds'⟩ := exists_roundsTo num' hden'
  have hle := hrounds.le hrounds' h
  rw [hbits, hbits']
  omega

theorem nearest_le_nearest {num den num' den' : Nat} (hden : 0 < den) (hden' : 0 < den')
    (h : (num : ℚ) / den ≤ (num' : ℚ) / den') : nearest num den ≤ nearest num' den' := by
  obtain ⟨bits', hbits', -⟩ := exists_roundsTo num' hden'
  exact ofPattern_le_ofPattern (nearestBits_mono hden hden' h) (hbits' ▸ Nat.min_le_left ..)

theorem nearest_congr {num den num' den' : Nat} (hden : 0 < den) (hden' : 0 < den')
    (h : (num : ℚ) / den = (num' : ℚ) / den') : nearest num den = nearest num' den' :=
  congrArg ofPattern ((nearestBits_mono hden hden' h.le).antisymm
    (nearestBits_mono hden' hden h.ge))

end Calculator.Decimal
