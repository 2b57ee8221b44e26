import Calculator.Decimal.Shortest
import Calculator.Text.Blank
import Calculator.Text.Digit

namespace Calculator.Decimal

-- The double nearest to `x`. Beyond these powers of ten it is infinity or zero.
def ofScaled (x : Scaled) : Float :=
  if x.digits = 0 then zero
  else if 310 < x.exponent then infinity
  else if digitCount x.digits + x.exponent < -330 then zero
  else nearest x.num x.den

def splitSign : List Char → Bool × List Char
  | '-' :: rest => (true, rest)
  | '+' :: rest => (false, rest)
  | chars => (false, chars)

def exponent? : List Char → Option Int
  | [] => some 0
  | mark :: rest =>
    let (negative, digits) := splitSign rest
    if (mark = 'e' ∨ mark = 'E') ∧ digits ≠ [] ∧ digits.all Char.isDigit then
      let power : Int := digitsValue digits
      some (if negative then -power else power)
    else none

def magnitude? (chars : List Char) : Option Float :=
  let whole := chars.takeWhile Char.isDigit
  let tail := chars.dropWhile Char.isDigit
  let hasPoint := tail.head? = some '.'
  let fraction := if hasPoint then tail.tail.takeWhile Char.isDigit else []
  let tail := if hasPoint then tail.tail.dropWhile Char.isDigit else tail
  if whole = [] ∧ fraction = [] then none
  else (exponent? tail).map fun exponent =>
    ofScaled ⟨digitsValue (whole ++ fraction), exponent - fraction.length⟩

def word? (chars : List Char) : Option Float :=
  let letters := chars.map Char.toLower
  if letters = "inf".toList ∨ letters = "infinity".toList then some infinity
  else if letters = "nan".toList then some nan
  else none

-- A text without its underscores, each of which needs a digit on both sides. `previous` is the
-- character in front.
def joinGroups (previous : Char) : List Char → Option (List Char)
  | [] => if previous = '_' then none else some []
  | c :: rest =>
    if c = '_' then if previous.isDigit then joinGroups c rest else none
    else if previous = '_' ∧ !c.isDigit then none
    else (joinGroups c rest).map (c :: ·)

-- The double that a numeral denotes: digits of all scripts with an optional point and exponent, or
-- a word for infinity or NaN, with white space around it.
def ofString? (text : String) : Option Float := do
  let chars ← joinGroups ' ' ((Text.trimPadding text.toList).map Text.plainDigit)
  let (negative, chars) := splitSign chars
  let magnitude ← (word? chars).or (magnitude? chars)
  return withSign negative magnitude

theorem ofScaled_zero_exponent (n : Nat) : ofScaled ⟨n, 0⟩ = nearest n 1 := by
  by_cases h : n = 0
  · subst h
    simp [ofScaled, nearest, nearestBits, zero]
  · have small : ¬((digitCount n : Int) < -330) := by omega
    simp [ofScaled, h, small, Scaled.num, Scaled.den]

theorem joinGroups_of_ne {previous : Char} {chars : List Char} (hp : previous ≠ '_')
    (h : ∀ c ∈ chars, c ≠ '_') : joinGroups previous chars = some chars := by
  induction chars generalizing previous with
  | nil => simp [joinGroups, hp]
  | cons c rest ih =>
    obtain ⟨hc, hrest⟩ := List.forall_mem_cons.mp h
    simp [joinGroups, hc, hp, ih hc hrest]

theorem joinGroups_of_isDigit (previous : Char) (digits : List Char) (hp : previous ≠ '_')
    (h : ∀ c ∈ digits, c.isDigit = true) : joinGroups previous digits = some digits := by
  refine joinGroups_of_ne hp fun c hc => ?_
  rintro rfl
  exact absurd (h '_' hc) (by decide)

theorem splitSign_of_isDigit {c : Char} (h : c.isDigit = true) (rest : List Char) :
    splitSign (c :: rest) = (false, c :: rest) := by
  unfold splitSign
  split <;> simp_all

theorem word?_of_isDigit {c : Char} (h : c.isDigit = true) (rest : List Char) :
    word? (c :: rest) = none := by
  have lower : c.toLower = c := by
    simp only [Char.isDigit, Bool.and_eq_true, decide_eq_true_eq] at h
    have notCapital : ¬('A'.val ≤ c.val ∧ c.val ≤ 'Z'.val) := fun capital =>
      absurd (UInt32.le_trans capital.1 h.2) (by decide)
    exact dif_neg notCapital
  have hi : c ≠ 'i' := by rintro rfl; exact absurd h (by decide)
  have hn : c ≠ 'n' := by rintro rfl; exact absurd h (by decide)
  simp [word?, lower, hi, hn]

theorem magnitude?_of_isDigit {digits : List Char} (hne : digits ≠ [])
    (h : ∀ c ∈ digits, c.isDigit = true) : magnitude? digits = some (ofDigits digits) := by
  have append : digits ++ [] = digits := List.append_nil digits
  have whole : digits.takeWhile Char.isDigit = digits := by
    rw [← append, List.takeWhile_append_of_pos h, List.takeWhile_nil]
  have tail : digits.dropWhile Char.isDigit = [] := by
    rw [← append, List.dropWhile_append_of_pos h, List.dropWhile_nil]
  simp [magnitude?, whole, tail, hne, exponent?, ofScaled_zero_exponent, ofDigits]

-- A string of ASCII digits denotes the double nearest to the number they write.
theorem ofString?_ofList_digits {digits : List Char} (hne : digits ≠ [])
    (h : ∀ c ∈ digits, c.isDigit = true) :
    ofString? (String.ofList digits) = some (ofDigits digits) := by
  obtain ⟨c, rest, rfl⟩ := List.exists_cons_of_ne_nil hne
  have hc := h c List.mem_cons_self
  have plain : (c :: rest).map Text.plainDigit = c :: rest := by
    have same := List.map_congr_left fun d hd => Text.plainDigit_of_isDigit (h d hd)
    simpa using same
  simp only [ofString?, String.toList_ofList, Text.trimPadding_of_isDigit h, plain,
    joinGroups_of_isDigit ' ' _ (by decide) h, Option.bind_eq_bind, Option.bind_some,
    splitSign_of_isDigit hc, word?_of_isDigit hc, magnitude?_of_isDigit hne h]
  rfl

end Calculator.Decimal
