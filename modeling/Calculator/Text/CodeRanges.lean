namespace Calculator.Text

-- A set of characters, written as closed ranges of code points in increasing order.
abbrev CodeRanges := List (Nat × Nat)

namespace CodeRanges

def contains (ranges : CodeRanges) (c : Char) : Bool :=
  ranges.any fun range => range.1 ≤ c.toNat && c.toNat ≤ range.2

theorem contains_iff (ranges : CodeRanges) (c : Char) :
    ranges.contains c = true ↔ ∃ range ∈ ranges, range.1 ≤ c.toNat ∧ c.toNat ≤ range.2 := by
  simp [contains]

end CodeRanges

-- Characters below 128 are told apart without a table.
def isAscii (c : Char) : Bool := c.toNat < 128

end Calculator.Text
