namespace Calculator.Decimal

-- Powers of naturals are those of `Nat`, also if the powers of a monoid are in scope.
attribute [local instance (high)] instPowNat

-- The quotient `a / b` rounded to a whole number, a half to the even neighbour.
def roundHalfEven (a b : Nat) : Nat :=
  let floor := a / b
  let rest := a % b
  if 2 * rest < b then floor
  else if b < 2 * rest then floor + 1
  else floor + floor % 2

-- The exponent of the greatest power of two that is at most `num / den`, for positive numbers.
def floorLog2 (num den : Nat) : Int :=
  let exponent : Int := (num.log2 : Int) - (den.log2 : Int)
  if den * 2 ^ exponent.toNat ≤ num * 2 ^ (-exponent).toNat then exponent else exponent - 1

def infinityBits : Nat := 0x7FF0000000000000

-- The exponent of the grid on which the doubles nearest to `num / den` lie.
def gridExponent (num den : Nat) : Int := max (-1074) (floorLog2 num den - 52)

-- The bit pattern of the double nearest to `num / den`, for positive `den`. Patterns count the
-- doubles in increasing order, so a carry into the next grid comes out right by itself.
def nearestBits (num den : Nat) : Nat :=
  if num = 0 then 0
  else
    let grid := gridExponent num den
    let steps := roundHalfEven (num * 2 ^ (-grid).toNat) (den * 2 ^ grid.toNat)
    min infinityBits ((grid + 1074).toNat * 2 ^ (52 : Nat) + steps)

def zero : Float := Float.ofBits 0

def one : Float := Float.ofBits 0x3FF0000000000000

def infinity : Float := Float.ofBits 0x7FF0000000000000

def nan : Float := Float.ofBits 0x7FF8000000000000

def nearest (num den : Nat) : Float := Float.ofBits (nearestBits num den).toUInt64

def withSign (negative : Bool) (x : Float) : Float := if negative then -x else x

-- The most digits of an integer in base ten that is read, zeros in front included.
def maxDigits : Nat := 4300

def digitsValue (digits : List Char) : Nat :=
  digits.foldl (fun value digit => 10 * value + (digit.toNat - '0'.toNat)) 0

def ofDigits (digits : List Char) : Float := nearest (digitsValue digits) 1

-- The double nearest to a number given by the digits before and after its decimal point.
def ofParts (whole fraction : List Char) : Float :=
  nearest (digitsValue (whole ++ fraction)) (10 ^ fraction.length)

-- The double nearest to an integer, unless the integer rounds beyond the finite doubles.
def ofInt? (n : Int) : Option Float :=
  let bits := nearestBits n.natAbs 1
  if bits = infinityBits then none
  else some (withSign (n < 0) (Float.ofBits bits.toUInt64))

end Calculator.Decimal
