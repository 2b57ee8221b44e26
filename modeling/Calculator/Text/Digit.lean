namespace Calculator.Text

-- The code points of the zeros, in increasing order (version 14 of the character standard). A
-- script that writes numbers with ten digits has them in a row, so its zero determines all ten.
def zeroCodes : List Nat :=
  [0x30, 0x660, 0x6F0, 0x7C0, 0x966, 0x9E6, 0xA66, 0xAE6, 0xB66, 0xBE6, 0xC66, 0xCE6, 0xD66,
   0xDE6, 0xE50, 0xED0, 0xF20, 0x1040, 0x1090, 0x17E0, 0x1810, 0x1946, 0x19D0, 0x1A80, 0x1A90,
   0x1B50, 0x1BB0, 0x1C40, 0x1C50, 0xA620, 0xA8D0, 0xA900, 0xA9D0, 0xA9F0, 0xAA50, 0xABF0,
   0xFF10, 0x104A0, 0x10D30, 0x11066, 0x110F0, 0x11136, 0x111D0, 0x112F0, 0x11450, 0x114D0,
   0x11650, 0x116C0, 0x11730, 0x118E0, 0x11950, 0x11C50, 0x11D50, 0x11DA0, 0x16A60, 0x16AC0,
   0x16B50, 0x1D7CE, 0x1D7D8, 0x1D7E2, 0x1D7EC, 0x1D7F6, 0x1E140, 0x1E2F0, 0x1E950, 0x1FBF0]

def digit? (c : Char) : Option Nat :=
  (zeroCodes.find? fun first => first ≤ c.toNat && c.toNat < first + 10).map (c.toNat - ·)

def isDecimalDigit (c : Char) : Bool := (digit? c).isSome

-- A digit of any script as the ASCII digit of the same value; any other character as it is.
def plainDigit (c : Char) : Char :=
  match digit? c with
  | some value => Char.ofNat ('0'.toNat + value)
  | none => c

-- ASCII digits count from the first zero.
theorem digit?_of_isDigit {c : Char} (h : c.isDigit = true) : digit? c = some (c.toNat - 0x30) := by
  simp only [Char.isDigit, Bool.and_eq_true, decide_eq_true_eq] at h
  have lower : 0x30 ≤ c.toNat := h.1
  have upper : c.toNat < 0x30 + 10 := Nat.lt_succ_of_le h.2
  simp [digit?, zeroCodes, lower, upper]

theorem plainDigit_of_isDigit {c : Char} (h : c.isDigit = true) : plainDigit c = c := by
  have lower : 0x30 ≤ c.toNat := by
    simp only [Char.isDigit, Bool.and_eq_true, decide_eq_true_eq] at h
    exact h.1
  have sum : '0'.toNat + (c.toNat - 0x30) = c.toNat := Nat.add_sub_cancel' lower
  simp only [plainDigit, digit?_of_isDigit h, sum, Char.ofNat_toNat]

end Calculator.Text
