import Calculator.Decimal.Nearest

namespace Calculator.Decimal

attribute [local instance (high)] instPowNat

-- The numerator and denominator of the magnitude of a finite double, given by its bit pattern
-- without the sign.
def ratioOfBits (bits : Nat) : Nat × Nat :=
  let biased := bits / 2 ^ (52 : Nat)
  let fraction := bits % 2 ^ (52 : Nat)
  let mantissa := if biased = 0 then fraction else 2 ^ (52 : Nat) + fraction
  let exponent : Int := (max 1 biased : Nat) - 1075
  (mantissa * 2 ^ exponent.toNat, 2 ^ (-exponent).toNat)

-- The number `digits * 10 ^ exponent`.
structure Scaled where
  digits : Nat
  exponent : Int
  deriving DecidableEq, Inhabited

namespace Scaled

def num (x : Scaled) : Nat := x.digits * 10 ^ x.exponent.toNat

def den (x : Scaled) : Nat := 10 ^ (-x.exponent).toNat

-- The same number without zeros at the end of its digits; `fuel` bounds their count.
def trim (x : Scaled) : Nat → Scaled
  | 0 => x
  | fuel + 1 =>
    if x.digits ≠ 0 ∧ x.digits % 10 = 0 then trim ⟨x.digits / 10, x.exponent + 1⟩ fuel else x

end Scaled

def digitCount (n : Nat) : Nat := (Nat.toDigits 10 n).length

-- The exponent of the greatest power of ten that is at most `num / den`, for positive numbers.
def floorLog10 (num den : Nat) : Int :=
  let exponent : Int := (digitCount num : Int) - (digitCount den : Int)
  if den * 10 ^ exponent.toNat ≤ num * 10 ^ (-exponent).toNat then exponent else exponent - 1

-- A neighbour of the double on the grid `10 ^ exponent` that reads back, the nearer of two. If the
-- two are equally near, the even one is preferred.
def neighbour? (bits num den : Nat) (exponent : Int) : Option Scaled :=
  let scaledNum := num * 10 ^ (-exponent).toNat
  let scaledDen := den * 10 ^ exponent.toNat
  let lower : Scaled := ⟨scaledNum / scaledDen, exponent⟩
  let upper : Scaled := ⟨scaledNum / scaledDen + 1, exponent⟩
  let readsBack := fun x : Scaled => nearestBits x.num x.den = bits
  let preferred := if roundHalfEven scaledNum scaledDen = lower.digits then lower else upper
  if readsBack preferred then some preferred
  else if readsBack lower then some lower
  else if readsBack upper then some upper
  else none

-- The value of a double to the last digit. Its denominator is a power of two, and for every
-- factor of two there a factor of five makes one of ten.
def exactDecimal (num den : Nat) : Scaled := ⟨num * 5 ^ den.log2, -(den.log2 : Int)⟩

-- The shortest decimal of a finite positive double. The decimals that read back form an interval
-- around the double, so if any point of a grid does, then so does a neighbour of the double there.
-- Seventeen digits are enough for every one.
def shortest (bits : Nat) : Scaled :=
  let (num, den) := ratioOfBits bits
  let leading := floorLog10 num den
  let found := (List.range 17).findSome? fun (more : Nat) =>
    neighbour? bits num den (leading - more)
  let x := found.getD (exactDecimal num den)
  x.trim (digitCount x.digits)

end Calculator.Decimal
