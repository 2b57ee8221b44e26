import Calculator.Decimal.Shortest

namespace Calculator.Decimal

attribute [local instance (high)] instPowNat

def zeros (count : Int) : List Char := List.replicate count.toNat '0'

-- The digits with a decimal point after the first `point` of them, zeros filled in.
def positional (digits : List Char) (point : Int) : List Char :=
  if point ≤ 0 then '0' :: '.' :: zeros (-point) ++ digits
  else if point < digits.length then digits.take point.toNat ++ '.' :: digits.drop point.toNat
  else digits ++ zeros (point - digits.length) ++ ['.', '0']

def scientific (digits : List Char) (exponent : Int) : List Char :=
  let sign := if exponent < 0 then '-' else '+'
  let power := Nat.toDigits 10 exponent.natAbs
  let fraction := if digits.length ≤ 1 then [] else '.' :: digits.drop 1
  digits.take 1 ++ fraction ++ 'e' :: sign :: zeros (2 - power.length) ++ power

def Scaled.layout (x : Scaled) : List Char :=
  let digits := Nat.toDigits 10 x.digits
  let point : Int := digits.length + x.exponent
  if -4 < point ∧ point ≤ 16 then positional digits point else scientific digits (point - 1)

def isNegative (x : Float) : Bool := 2 ^ (63 : Nat) ≤ x.toBits.toNat

def magnitudeBits (x : Float) : Nat := x.toBits.toNat % 2 ^ (63 : Nat)

-- A double as text that reads back as the same double.
def render (x : Float) : String :=
  if x.isNaN then "nan"
  else
    let bits := magnitudeBits x
    let magnitude :=
      if bits = infinityBits then ['i', 'n', 'f']
      else if bits = 0 then ['0', '.', '0']
      else (shortest bits).layout
    String.ofList (if isNegative x then '-' :: magnitude else magnitude)

def integer? (x : Float) : Option Int :=
  let bits := magnitudeBits x
  if infinityBits ≤ bits then none
  else
    let (num, den) := ratioOfBits bits
    if num % den = 0 then
      let whole : Int := (num / den : Nat)
      some (if isNegative x then -whole else whole)
    else none

-- A double as an answer: an integer shows all its digits and no point.
def answer (x : Float) : String :=
  match integer? x with
  | some n => toString n
  | none => render x

end Calculator.Decimal
