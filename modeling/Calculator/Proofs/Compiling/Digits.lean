import Calculator.Proofs.Compiling.Semantics

namespace Calculator

namespace Text

theorem digit?_eq_some {c : Char} {value : Nat} (h : digit? c = some value) :
    value < 10 ∧ ∃ first ∈ zeroCodes, c.toNat = first + value := by
  simp only [digit?, Option.map_eq_some_iff] at h
  obtain ⟨first, hfind, rfl⟩ := h
  have hrange := List.find?_some hfind
  simp only [Bool.and_eq_true, decide_eq_true_eq] at hrange
  exact ⟨by omega, first, List.mem_of_find?_eq_some hfind, by omega⟩

theorem isDigit_plainDigit {c : Char} (h : isDecimalDigit c = true) :
    (plainDigit c).isDigit = true := by
  obtain ⟨value, hvalue⟩ := Option.isSome_iff_exists.mp h
  obtain ⟨hlt, _⟩ := digit?_eq_some hvalue
  have hall : ∀ value < 10, (Char.ofNat ('0'.toNat + value)).isDigit = true := by decide
  rw [plainDigit, hvalue]
  exact hall value hlt

theorem isPadding_of_isDecimalDigit {c : Char} (h : isDecimalDigit c = true) :
    isPadding c = false := by
  obtain ⟨value, hvalue⟩ := Option.isSome_iff_exists.mp h
  obtain ⟨hlt, first, hfirst, hcode⟩ := digit?_eq_some hvalue
  have happart : ∀ first ∈ zeroCodes, ∀ range ∈ blankRanges,
      first + 10 ≤ range.1 ∨ range.2 < first := by decide
  have hblank : isBlank c = false := by
    rw [Bool.eq_false_iff]
    intro hblank
    obtain ⟨range, hrange, hlow, hhigh⟩ := (CodeRanges.contains_iff _ _).mp hblank
    have := happart first hfirst range hrange
    omega
  simp [isPadding, hblank]

theorem trimPadding_of_isDecimalDigit {digits : List Char}
    (h : ∀ c ∈ digits, isDecimalDigit c = true) : trimPadding digits = digits :=
  trimPadding_of_isPadding fun c hc => isPadding_of_isDecimalDigit (h c hc)

end Text

-- Digits of any script denote what the ASCII digits in their place do.
theorem Decimal.ofString?_of_isDecimalDigit {text : String} (hne : text ≠ "")
    (h : ∀ c ∈ text.toList, Text.isDecimalDigit c = true) :
    Decimal.ofString? text = some (Decimal.ofDigits (text.toList.map Text.plainDigit)) := by
  have hplain : ∀ c ∈ text.toList.map Text.plainDigit, c.isDigit = true := by
    intro c hc
    obtain ⟨d, hd, rfl⟩ := List.mem_map.mp hc
    exact Text.isDigit_plainDigit (h d hd)
  have hagain : (text.toList.map Text.plainDigit).map Text.plainDigit =
      text.toList.map Text.plainDigit := by
    have hsame := List.map_congr_left fun c hc => Text.plainDigit_of_isDigit (hplain c hc)
    rwa [List.map_id'] at hsame
  have hsame : ofString? text = ofString? (String.ofList (text.toList.map Text.plainDigit)) := by
    simp only [ofString?, String.toList_ofList, Text.trimPadding_of_isDecimalDigit h,
      Text.trimPadding_of_isDigit hplain, hagain]
  have hsome : text.toList.map Text.plainDigit ≠ [] := by simpa using hne
  rw [hsame, ofString?_ofList_digits hsome hplain]

theorem Compiler.wholeValue_of_digits {token : Token}
    (h : ∀ c ∈ (token.text.getD "").toList, Text.isDecimalDigit c = true) :
    Compiler.wholeValue token = .ok token.whole := by
  unfold wholeValue
  dsimp only
  split
  · rename_i hempty
    rw [Token.whole, hempty]
    rfl
  · rename_i hne
    rw [Decimal.ofString?_of_isDecimalDigit hne h]
    rfl

end Calculator
