import Calculator.Data
import Calculator.Yaml.Scalar

namespace Calculator.Yaml

def nullWords : List String := ["", "~", "null", "Null", "NULL"]

def trueWords : List String :=
  ["yes", "Yes", "YES", "true", "True", "TRUE", "on", "On", "ON"]

def falseWords : List String :=
  ["no", "No", "NO", "false", "False", "FALSE", "off", "Off", "OFF"]

def naturalOf? (base : Nat) (digits : List Char) : Option Nat :=
  let digits := digits.filter (· ≠ '_')
  if digits = [] then none else Scalar.numeral? base digits

-- A zero in front means base eight, with a letter behind it base two or sixteen.
def natural? : List Char → Option Nat
  | ['0'] => some 0
  | '0' :: 'b' :: digits => naturalOf? 2 digits
  | '0' :: 'x' :: digits => naturalOf? 16 digits
  | '0' :: digits => naturalOf? 8 ('0' :: digits)
  | '_' :: _ => none
  | digits => naturalOf? 10 digits

def integer? (chars : List Char) : Option Int :=
  let (negative, magnitude) := Decimal.splitSign chars
  (natural? magnitude).map fun n => if negative then -(n : Int) else n

-- Why a scalar that is written as an integer denotes none.
inductive IntegerFault where
  -- nothing but underscores stands behind the mark of the base
  | noDigits (base : Nat)
  | tooManyDigits (count : Nat)
  deriving DecidableEq, Inhabited

def IntegerFault.message : IntegerFault → String
  | noDigits base => "invalid literal for int() with base " ++ toString base ++ ": ''"
  | tooManyDigits count =>
    "Exceeds the limit (" ++ toString Decimal.maxDigits ++ " digits) for integer string " ++
      "conversion: value has " ++ toString count ++
      " digits; use sys.set_int_max_str_digits() to increase the limit"

-- What is wrong with the digits behind the mark of a base.
def baseFault? (base : Nat) (digits : List Char) : Option IntegerFault :=
  if digits ≠ [] && digits.all (· = '_') then some (.noDigits base) else none

-- What is wrong with an integer. Only in base ten the number of digits is limited.
def integerFault? (text : String) : Option IntegerFault :=
  match (Decimal.splitSign text.toList).2 with
  | '0' :: 'b' :: digits => baseFault? 2 digits
  | '0' :: 'x' :: digits => baseFault? 16 digits
  | '0' :: _ | '_' :: _ => none
  | magnitude =>
    let digits := magnitude.filter (· ≠ '_')
    if digits.all Char.isDigit && Decimal.maxDigits < digits.length then
      some (.tooManyDigits digits.length)
    else none

-- An exponent needs a sign and digits.
def isExponent : List Char → Bool
  | [] => true
  | mark :: sign :: digits =>
    (mark = 'e' || mark = 'E') && (sign = '-' || sign = '+') && digits ≠ [] &&
      digits.all Char.isDigit
  | _ => false

-- A double needs a decimal point. Without digits before the point it has no sign, and needs
-- some behind the point.
def isDecimal (chars : List Char) : Bool :=
  let isDigit := fun c : Char => c.isDigit || c = '_'
  let (_, magnitude) := Decimal.splitSign chars
  let whole := magnitude.takeWhile isDigit
  match magnitude.dropWhile isDigit with
  | '.' :: rest =>
    let fraction := rest.takeWhile isDigit
    isExponent (rest.dropWhile isDigit) &&
      if whole = [] then chars.length = magnitude.length && fraction.any Char.isDigit
      else whole.head? ≠ some '_'
  | _ => false

def double? (chars : List Char) : Option Float :=
  let (negative, magnitude) := Decimal.splitSign chars
  let word := String.ofList magnitude
  if [".inf", ".Inf", ".INF"].contains word then
    some (Decimal.withSign negative Decimal.infinity)
  else if [".nan", ".NaN", ".NAN"].contains (String.ofList chars) then some Decimal.nan
  else if isDecimal chars then Decimal.ofString? (String.ofList (chars.filter (· ≠ '_')))
  else none

-- The words that stand for merging mappings and for a default value are refused.
def resolve (text : String) : Option Data :=
  let chars := text.toList
  if text = "<<" || text = "=" then none
  else if nullWords.contains text then some .null
  else if trueWords.contains text then some (.bool true)
  else if falseWords.contains text then some (.bool false)
  else
    match integer? chars, double? chars with
    | some n, _ => some (.int n)
    | none, some x => some (.float x)
    | none, none => some (.text text)

end Calculator.Yaml
