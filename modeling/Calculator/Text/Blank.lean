import Calculator.Text.CodeRanges

namespace Calculator.Text

-- White space in the widest sense: the space separators, the control characters that move the
-- carriage or separate records, and the line and paragraph separators.
def blankRanges : CodeRanges :=
  [(0x09, 0x0D), (0x1C, 0x20), (0x85, 0x85), (0xA0, 0xA0), (0x1680, 0x1680), (0x2000, 0x200A),
   (0x2028, 0x2029), (0x202F, 0x202F), (0x205F, 0x205F), (0x3000, 0x3000)]

def isBlank (c : Char) : Bool := blankRanges.contains c

-- A line is blank when nothing but white space stands in it.
def isBlankLine (line : String) : Bool := line.toList.all isBlank

def isRecordMark (c : Char) : Bool := 0x1C ≤ c.toNat && c.toNat ≤ 0x1F

-- White space that may stand around a number. The marks of records may not.
def isPadding (c : Char) : Bool := isBlank c && !isRecordMark c

def trimPadding (text : List Char) : List Char :=
  ((text.dropWhile isPadding).reverse.dropWhile isPadding).reverse

theorem isPadding_of_isDigit {c : Char} (h : c.isDigit = true) : isPadding c = false := by
  simp only [Char.isDigit, Bool.and_eq_true, decide_eq_true_eq] at h
  have lower : 0x30 ≤ c.toNat := h.1
  have upper : c.toNat ≤ 0x39 := h.2
  simp [isPadding, isBlank, CodeRanges.contains, blankRanges]
  omega

-- Nothing is trimmed where there is no padding.
theorem trimPadding_of_isPadding {chars : List Char} (h : ∀ c ∈ chars, isPadding c = false) :
    trimPadding chars = chars := by
  have keep : ∀ text : List Char, (∀ c ∈ text, isPadding c = false) →
      text.dropWhile isPadding = text := by
    intro text ht
    cases text with
    | nil => rfl
    | cons c rest => simp [ht c List.mem_cons_self]
  rw [trimPadding, keep chars h, keep chars.reverse (by simpa using h), List.reverse_reverse]

theorem trimPadding_of_isDigit {digits : List Char} (h : ∀ c ∈ digits, c.isDigit = true) :
    trimPadding digits = digits :=
  trimPadding_of_isPadding fun c hc => isPadding_of_isDigit (h c hc)

end Calculator.Text
