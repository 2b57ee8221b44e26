import Mathlib
import Calculator.Decimal.Text

namespace Calculator.Decimal

open Float.Model (Format UnpackedFloat)
open Float.Model.UnpackedFloat

attribute [local instance (high)] instPowNat

-- The whole number that a pattern without the sign counts in its grid.
def significand (bits : Nat) : Nat :=
  if bits / 2 ^ 52 = 0 then bits % 2 ^ 52 else 2 ^ 52 + bits % 2 ^ 52

-- The exponent of the grid. The first two grids have the same.
def scale (bits : Nat) : Int := (max 1 (bits / 2 ^ 52) : Nat) - 1075

-- The double of a sign and a pattern.
def datum (sign : Sign) (bits : Nat) : UnpackedFloat :=
  if bits = infinityBits then .infinity sign
  else if h : 0 < significand bits then .finite sign (significand bits) (scale bits) h
  else .zero sign

theorem significand_eq_zero_iff {bits : Nat} : significand bits = 0 ↔ bits = 0 := by
  unfold significand
  split <;> omega

theorem datum_infinityBits (sign : Sign) : datum sign infinityBits = .infinity sign := if_pos rfl

theorem datum_zero (sign : Sign) : datum sign 0 = .zero sign := rfl

theorem datum_of_pos (sign : Sign) {bits : Nat} (hinfinity : bits ≠ infinityBits)
    (h : 0 < significand bits) :
    datum sign bits = .finite sign (significand bits) (scale bits) h := by
  rw [datum, if_neg hinfinity, dif_pos h]

theorem neg_datum (sign : Sign) (bits : Nat) :
    (datum sign bits).neg = datum (-sign) bits := by
  unfold datum
  split_ifs <;> rfl

section Fields

variable (bits : BitVec 64)

theorem toNat_mantissa : (@unpackMantissa Format.binary64 bits).toNat = bits.toNat % 2 ^ 52 := by
  simp [unpackMantissa]

theorem toNat_exponent :
    (@unpackExponent Format.binary64 bits).toNat = bits.toNat / 2 ^ 52 % 2 ^ 11 := by
  simp [unpackExponent, Nat.shiftRight_eq_div_pow]

theorem toNat_sign : (@unpackSign Format.binary64 bits).toNat = bits.toNat / 2 ^ 63 := by
  have hlt : bits.toNat < 2 ^ 64 := bits.isLt
  have hbit : (@unpackSign Format.binary64 bits).toNat = (bits.toNat >>> 63) % 2 ^ 1 := rfl
  rw [hbit, Nat.shiftRight_eq_div_pow]
  omega

theorem exponent_eq_neg_one_iff :
    @unpackExponent Format.binary64 bits = -1#_ ↔ infinityBits ≤ bits.toNat % 2 ^ 63 := by
  have hlt : bits.toNat < 2 ^ 64 := bits.isLt
  rw [← BitVec.toNat_inj, toNat_exponent]
  simp only [BitVec.neg_one_eq_allOnes, BitVec.toNat_allOnes, infinityBits]
  omega

theorem exponent_eq_zero_iff :
    @unpackExponent Format.binary64 bits = 0#_ ↔ bits.toNat % 2 ^ 63 < 2 ^ 52 := by
  rw [← BitVec.toNat_inj, toNat_exponent, BitVec.toNat_zero]
  omega

theorem mantissa_eq_zero_iff :
    @unpackMantissa Format.binary64 bits = 0#_ ↔ bits.toNat % 2 ^ 52 = 0 := by
  rw [← BitVec.toNat_inj, toNat_mantissa, BitVec.toNat_zero]

theorem sign_eq :
    Sign.ofBitVec (@unpackSign Format.binary64 bits) =
      if 2 ^ 63 ≤ bits.toNat then .negative else .positive := by
  have hlt : bits.toNat < 2 ^ 64 := bits.isLt
  have hzero : @unpackSign Format.binary64 bits = 0#1 ↔ ¬2 ^ 63 ≤ bits.toNat := by
    rw [← BitVec.toNat_inj, toNat_sign, BitVec.toNat_zero]
    omega
  simp only [Sign.ofBitVec, hzero]
  split_ifs <;> rfl

omit bits in
theorem toNat_append {n m : Nat} (x : BitVec n) (y : BitVec m) :
    (x ++ y).toNat = x.toNat * 2 ^ m + y.toNat := by
  rw [BitVec.toNat_append, ← Nat.shiftLeft_add_eq_or_of_lt y.isLt, Nat.shiftLeft_eq]

-- The patterns of the first grid have their digits written out.
theorem unpack_of_subnormal (h : bits.toNat % 2 ^ 63 < 2 ^ 52) :
    unpack Format.binary64 bits =
      datum (Sign.ofBitVec (@unpackSign Format.binary64 bits)) (bits.toNat % 2 ^ 63) := by
  have hbias : Format.binary64.exponentBias = 1023 := rfl
  have hwidth : Format.binary64.mantissaBitsWithoutImplicit = 52 := rfl
  have hfinite : bits.toNat % 2 ^ 63 < infinityBits := Nat.lt_trans h (by decide)
  have hmantissa := toNat_mantissa bits
  have htop := (exponent_eq_neg_one_iff bits).not.mpr (Nat.not_le.mpr hfinite)
  unfold unpack
  rw [if_neg htop, if_pos ((exponent_eq_zero_iff bits).mpr h)]
  by_cases hnone : bits.toNat % 2 ^ 52 = 0
  · have hzero : bits.toNat % 2 ^ 63 = 0 := by omega
    rw [dif_pos ((mantissa_eq_zero_iff bits).mpr hnone), hzero]
    rfl
  · have hsignificand : (@unpackMantissa Format.binary64 bits).toNat =
        significand (bits.toNat % 2 ^ 63) := by
      rw [hmantissa, significand]
      split <;> omega
    rw [dif_neg ((mantissa_eq_zero_iff bits).not.mpr hnone),
      datum_of_pos _ (Nat.ne_of_lt hfinite) (by omega)]
    congr 1
    rw [toNat_exponent, scale, hbias, hwidth]
    omega

-- Those of the other grids have one digit more.
theorem unpack_of_normal (hlow : 2 ^ 52 ≤ bits.toNat % 2 ^ 63)
    (hfinite : bits.toNat % 2 ^ 63 < infinityBits) :
    unpack Format.binary64 bits =
      datum (Sign.ofBitVec (@unpackSign Format.binary64 bits)) (bits.toNat % 2 ^ 63) := by
  have hbias : Format.binary64.exponentBias = 1023 := rfl
  have hwidth : Format.binary64.mantissaBitsWithoutImplicit = 52 := rfl
  have htop := (exponent_eq_neg_one_iff bits).not.mpr (Nat.not_le.mpr hfinite)
  have hsignificand : (1#1 ++ @unpackMantissa Format.binary64 bits).toNat =
      significand (bits.toNat % 2 ^ 63) := by
    rw [toNat_append, toNat_mantissa, BitVec.toNat_one (by decide), significand,
      if_neg (by omega), hwidth]
    omega
  have hpositive : 0 < significand (bits.toNat % 2 ^ 63) :=
    Nat.pos_of_ne_zero (significand_eq_zero_iff.not.mpr (by omega))
  unfold unpack
  rw [if_neg htop, if_neg ((exponent_eq_zero_iff bits).not.mpr (Nat.not_lt.mpr hlow)),
    datum_of_pos _ (Nat.ne_of_lt hfinite) hpositive]
  congr 1
  rw [toNat_exponent, scale, hbias, hwidth]
  omega

theorem unpack_eq_datum (h : bits.toNat % 2 ^ 63 ≤ infinityBits) :
    unpack Format.binary64 bits =
      datum (Sign.ofBitVec (@unpackSign Format.binary64 bits)) (bits.toNat % 2 ^ 63) := by
  rcases Nat.lt_or_eq_of_le h with hfinite | hinfinity
  · rcases Nat.lt_or_ge (bits.toNat % 2 ^ 63) (2 ^ 52) with hsmall | hlow
    · exact unpack_of_subnormal bits hsmall
    · exact unpack_of_normal bits hlow hfinite
  · have hbottom : bits.toNat % 2 ^ 52 = 0 := by
      unfold infinityBits at hinfinity
      omega
    unfold unpack
    rw [if_pos ((exponent_eq_neg_one_iff bits).mpr hinfinity.ge),
      if_pos ((mantissa_eq_zero_iff bits).mpr hbottom), hinfinity]
    rfl

theorem not_isNaNBits (h : bits.toNat % 2 ^ 63 ≤ infinityBits) :
    ¬@isNaNBits Format.binary64 bits := by
  intro hnan
  obtain ⟨hexponent, hmantissa⟩ := of_decide_eq_true hnan
  have htop := (exponent_eq_neg_one_iff bits).mp hexponent
  have hsome := (mantissa_eq_zero_iff bits).not.mp hmantissa
  unfold infinityBits at *
  omega

theorem unpack_of_nan (h : infinityBits < bits.toNat % 2 ^ 63) :
    unpack Format.binary64 bits = .notANumber := by
  have hmantissa : ¬@unpackMantissa Format.binary64 bits = 0#_ := by
    rw [mantissa_eq_zero_iff]
    unfold infinityBits at h
    omega
  unfold unpack
  rw [if_pos ((exponent_eq_neg_one_iff bits).mpr (Nat.le_of_lt h)), if_neg hmantissa]

end Fields

theorem toNat_pack_datum (sign : Sign) {bits : Nat} (h : bits ≤ infinityBits) :
    (pack Format.binary64 (datum sign bits)).toNat = sign.toBitVec.toNat * 2 ^ 63 + bits := by
  have hword : (BitVec.ofNat 64 (sign.toBitVec.toNat * 2 ^ 63 + bits)).toNat =
      sign.toBitVec.toNat * 2 ^ 63 + bits := by
    have hbit := sign.toBitVec.isLt
    unfold infinityBits at h
    rw [BitVec.toNat_ofNat, Nat.mod_eq_of_lt (by omega)]
  generalize BitVec.ofNat 64 (sign.toBitVec.toNat * 2 ^ 63 + bits) = word at hword
  have hrest : word.toNat % 2 ^ 63 = bits := by
    unfold infinityBits at h
    omega
  have hsign : Sign.ofBitVec (@unpackSign Format.binary64 word) = sign := by
    rw [sign_eq, hword]
    unfold infinityBits at h
    cases sign with
    | positive =>
      have hbit : Sign.positive.toBitVec.toNat = 0 := rfl
      exact if_neg (by omega)
    | negative =>
      have hbit : Sign.negative.toBitVec.toNat = 1 := rfl
      exact if_pos (by omega)
  -- the double is what its pattern is taken apart into, and packing restores the pattern
  have hunpack := unpack_eq_datum word (by omega)
  rw [hsign, hrest] at hunpack
  rw [← hunpack, pack_unpack, if_neg (not_isNaNBits word (by omega)), hword]

-- The double of positive sign with a given pattern.
def ofPattern (bits : Nat) : Float := Float.ofBits bits.toUInt64

-- The sign of a double, as its parts have it.
def signOf (x : Float) : Sign := if isNegative x then .negative else .positive

theorem unpack_toModel {x : Float} (h : magnitudeBits x ≤ infinityBits) :
    x.toModel.unpack = datum (signOf x) (magnitudeBits x) := by
  have hsign : signOf x = Sign.ofBitVec (@unpackSign Format.binary64 x.toBits.toBitVec) := by
    rw [sign_eq, signOf, isNegative]
    simp only [decide_eq_true_eq]
    rfl
  rw [hsign]
  exact unpack_eq_datum x.toBits.toBitVec h

theorem isNaN_iff (x : Float) : x.isNaN = true ↔ infinityBits < magnitudeBits x := by
  have hnan : x.isNaN = x.toModel.unpack.isNaN := rfl
  rcases Nat.lt_or_ge infinityBits (magnitudeBits x) with h | h
  · have hunpack : x.toModel.unpack = .notANumber := unpack_of_nan x.toBits.toBitVec h
    rw [hnan, hunpack]
    exact iff_of_true rfl h
  · rw [hnan, unpack_toModel h, datum]
    refine iff_of_false ?_ (Nat.not_lt.mpr h)
    split_ifs <;> simp [UnpackedFloat.isNaN]

theorem toNat_toBits_ofPattern {bits : Nat} (h : bits ≤ infinityBits) :
    (ofPattern bits).toBits.toNat = bits := by
  have hword : bits.toUInt64.toBitVec.toNat = bits := by
    unfold infinityBits at h
    exact Nat.mod_eq_of_lt (by omega)
  have hnumber := not_isNaNBits bits.toUInt64.toBitVec (by
    rw [hword]
    exact Nat.le_trans (Nat.mod_le ..) h)
  have hbits : (ofPattern bits).toBits.toNat =
    (pack Format.binary64 (unpack Format.binary64 bits.toUInt64.toBitVec)).toNat := rfl
  rw [hbits, pack_unpack, if_neg hnumber, hword]

theorem magnitudeBits_ofPattern {bits : Nat} (h : bits ≤ infinityBits) :
    magnitudeBits (ofPattern bits) = bits := by
  rw [magnitudeBits, toNat_toBits_ofPattern h]
  unfold infinityBits at h
  omega

theorem isNegative_ofPattern {bits : Nat} (h : bits ≤ infinityBits) :
    isNegative (ofPattern bits) = false := by
  rw [isNegative, toNat_toBits_ofPattern h]
  unfold infinityBits at h
  exact decide_eq_false (by omega)

theorem unpack_ofPattern {bits : Nat} (h : bits ≤ infinityBits) :
    (ofPattern bits).toModel.unpack = datum .positive bits := by
  have hsame := magnitudeBits_ofPattern h
  rw [unpack_toModel (by omega), hsame, signOf, isNegative_ofPattern h]
  rfl

theorem isNegative_iff (x : Float) : isNegative x = true ↔ 2 ^ 63 ≤ x.toBits.toNat :=
  decide_eq_true_iff

theorem toNat_toBits_eq (x : Float) :
    x.toBits.toNat = (if isNegative x then 2 ^ 63 else 0) + magnitudeBits x := by
  have hlt : x.toBits.toNat < 2 ^ 64 := x.toBits.toNat_lt
  rw [magnitudeBits]
  simp only [isNegative_iff]
  split_ifs <;> omega

theorem toNat_toBits_neg {x : Float} (h : magnitudeBits x ≤ infinityBits) :
    (-x).toBits.toNat = (if isNegative x then 0 else 2 ^ 63) + magnitudeBits x := by
  have hneg : (-x).toBits.toNat = (pack Format.binary64 x.toModel.unpack.neg).toNat := rfl
  rw [hneg, unpack_toModel h, neg_datum, toNat_pack_datum _ h, signOf]
  cases isNegative x <;> rfl

theorem withSign_ofPattern (x : Float) (h : magnitudeBits x ≤ infinityBits) :
    withSign (isNegative x) (ofPattern (magnitudeBits x)) = x := by
  refine Float.toBits_inj.mp (UInt64.toNat_inj.mp ?_)
  rw [toNat_toBits_eq x]
  cases hsign : isNegative x with
  | false => exact (toNat_toBits_ofPattern h).trans (Nat.zero_add _).symm
  | true =>
    have hpositive := isNegative_ofPattern h
    have hsame := magnitudeBits_ofPattern h
    have hneg := toNat_toBits_neg (x := ofPattern (magnitudeBits x)) (by rw [hsame]; exact h)
    rw [hpositive, hsame] at hneg
    exact hneg

theorem ofPattern_eq_self {x : Float} (h : magnitudeBits x ≤ infinityBits)
    (hsign : isNegative x = false) : ofPattern (magnitudeBits x) = x := by
  have hself := withSign_ofPattern x h
  rwa [hsign] at hself

-- The number that a finite double is.
def number? (x : Float) : Option ℚ :=
  match x.toModel.unpack with
  | .zero _ => some 0
  | .finite sign significand exponent _ => some (sign.apply significand * 2 ^ exponent)
  | .infinity _ | .notANumber => none

-- The number of a pattern without the sign. Patterns beyond the finite ones go on counting.
def magnitude (bits : Nat) : ℚ := significand bits * 2 ^ scale bits

def signed (negative : Bool) (q : ℚ) : ℚ := if negative then -q else q

theorem number?_eq_some {x : Float} (h : magnitudeBits x < infinityBits) :
    number? x = some (signed (isNegative x) (magnitude (magnitudeBits x))) := by
  rw [number?, unpack_toModel (Nat.le_of_lt h)]
  unfold magnitude
  generalize magnitudeBits x = bits at h
  rcases Nat.eq_zero_or_pos (significand bits) with hzero | hpositive
  · rw [hzero, significand_eq_zero_iff.mp hzero, datum_zero]
    cases isNegative x <;> simp [signed]
  · rw [datum_of_pos _ (Nat.ne_of_lt h) hpositive]
    dsimp only
    cases hsign : isNegative x <;> simp [signed, signOf, hsign, Sign.apply]

theorem number?_ofPattern {bits : Nat} (h : bits < infinityBits) :
    number? (ofPattern bits) = some (magnitude bits) := by
  have hbits := magnitudeBits_ofPattern (Nat.le_of_lt h)
  rw [number?_eq_some (by omega), hbits, isNegative_ofPattern (Nat.le_of_lt h)]
  rfl

theorem number?_eq_none {x : Float} (h : infinityBits ≤ magnitudeBits x) : number? x = none := by
  rcases Nat.lt_or_eq_of_le h with hnan | hinfinity
  · have hunpack : x.toModel.unpack = .notANumber := unpack_of_nan x.toBits.toBitVec hnan
    rw [number?, hunpack]
  · rw [number?, unpack_toModel hinfinity.ge, ← hinfinity, datum_infinityBits]

theorem scale_lt_or {m n : Nat} (h : m < n) :
    scale m < scale n ∨ scale m = scale n ∧ significand m < significand n := by
  unfold scale significand
  split_ifs <;> omega

theorem compare_parts_of_lt {m n : Nat} (h : m < n) :
    (compare (scale m) (scale n)).then (compare (significand m) (significand n)) = .lt := by
  rcases scale_lt_or h with hscale | ⟨hscale, hsignificand⟩
  · rw [compare_lt_iff_lt.mpr hscale]
    rfl
  · rw [compare_eq_iff_eq.mpr hscale, compare_lt_iff_lt.mpr hsignificand]
    rfl

theorem compare_datum_self (sign : Sign) (m : Nat) :
    (datum sign m).compare (datum sign m) = some .eq := by
  unfold datum
  split_ifs <;> cases sign <;> simp [UnpackedFloat.compare] <;> rfl

-- Doubles of positive sign are ordered as their patterns.
theorem compare_datum_of_lt {m n : Nat} (h : m < n) (hn : n ≤ infinityBits) :
    (datum .positive m).compare (datum .positive n) = some .lt := by
  have hm : m ≠ infinityBits := by omega
  have hpositive : 0 < significand n :=
    Nat.pos_of_ne_zero (significand_eq_zero_iff.not.mpr (by omega))
  have hparts := compare_parts_of_lt h
  unfold datum
  rw [if_neg hm, dif_pos hpositive]
  split_ifs
  · rfl
  · exact congrArg some hparts
  · rfl
  · rfl

theorem beq_self {x : Float} (h : magnitudeBits x ≤ infinityBits) : (x == x) = true := by
  refine Float.beq_self_iff.mpr ?_
  rintro rfl
  exact absurd h (by decide)

theorem ofPattern_le_ofPattern {m n : Nat} (h : m ≤ n) (hn : n ≤ infinityBits) :
    ofPattern m ≤ ofPattern n := by
  have hle : (ofPattern m ≤ ofPattern n) =
      (decide ((ofPattern m).toModel.unpack.le (ofPattern n).toModel.unpack = true) = true) := rfl
  rw [hle, decide_eq_true_iff, unpack_ofPattern (h.trans hn), unpack_ofPattern hn,
    UnpackedFloat.le]
  rcases Nat.lt_or_eq_of_le h with hlt | rfl
  · rw [compare_datum_of_lt hlt hn]
    rfl
  · rw [compare_datum_self]
    rfl

end Calculator.Decimal
