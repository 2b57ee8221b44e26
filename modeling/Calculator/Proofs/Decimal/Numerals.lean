import Calculator.Decimal.Numeral

namespace Calculator.Decimal

-- A character that stands for itself in a numeral.
structure IsPlain (c : Char) : Prop where
  isPadding_eq : Text.isPadding c = false
  plainDigit_eq : Text.plainDigit c = c
  ne_underscore : c ≠ '_'

namespace IsPlain

theorem of_isDigit {c : Char} (h : c.isDigit = true) : IsPlain c := by
  refine ⟨Text.isPadding_of_isDigit h, Text.plainDigit_of_isDigit h, ?_⟩
  rintro rfl
  exact absurd h (by decide)

theorem of_mem {c : Char} (h : c ∈ ['.', 'e', '+', '-', 'i', 'n', 'f']) : IsPlain c := by
  have hall : ['.', 'e', '+', '-', 'i', 'n', 'f'].all
      (fun c => !Text.isPadding c && Text.plainDigit c == c && c != '_') = true := by decide
  have hplain := List.all_eq_true.mp hall c h
  simp only [Bool.and_eq_true, Bool.not_eq_true', beq_iff_eq, bne_iff_ne] at hplain
  exact ⟨hplain.1.1, hplain.1.2, hplain.2⟩

end IsPlain

theorem ofString?_of_plain {chars : List Char} (h : ∀ c ∈ chars, IsPlain c) :
    ofString? (String.ofList chars) =
      ((word? (splitSign chars).2).or (magnitude? (splitSign chars).2)).map
        (withSign (splitSign chars).1) := by
  have htrim : Text.trimPadding chars = chars :=
    Text.trimPadding_of_isPadding fun c hc => (h c hc).isPadding_eq
  have hsame : chars.map Text.plainDigit = chars := by
    have hmap := List.map_congr_left (f := Text.plainDigit) (g := id) fun c hc =>
      (h c hc).plainDigit_eq
    rwa [List.map_id] at hmap
  have hjoin : joinGroups ' ' chars = some chars :=
    joinGroups_of_ne (by decide) fun c hc => (h c hc).ne_underscore
  rw [ofString?, String.toList_ofList, htrim, hsame, hjoin, Option.map_eq_bind]
  rfl

theorem takeWhile_isDigit_append {digits : List Char} (h : ∀ c ∈ digits, c.isDigit = true)
    {next : Char} (hnext : next.isDigit = false) (rest : List Char) :
    (digits ++ next :: rest).takeWhile Char.isDigit = digits ∧
      (digits ++ next :: rest).dropWhile Char.isDigit = next :: rest := by
  rw [List.takeWhile_append_of_pos h, List.dropWhile_append_of_pos h]
  simp [hnext]

-- Digits, and at least one of them.
structure IsDigits (chars : List Char) : Prop where
  nonempty : chars ≠ []
  isDigit : ∀ c ∈ chars, c.isDigit = true

theorem IsDigits.toDigits (n : Nat) : IsDigits (Nat.toDigits 10 n) :=
  ⟨Nat.toDigits_ne_nil, fun _ hc => Nat.isDigit_of_mem_toDigits (by decide) (by decide) hc⟩

-- A text that denotes a double and begins with a digit.
structure Reads (chars : List Char) (y : Float) : Prop where
  plain : ∀ c ∈ chars, IsPlain c
  begins : ∃ first rest, chars = first :: rest ∧ first.isDigit = true
  magnitude?_eq : magnitude? chars = some y

namespace Reads

theorem ofString?_eq {chars : List Char} {y : Float} (h : Reads chars y) (negative : Bool) :
    ofString? (String.ofList (if negative then '-' :: chars else chars)) =
      some (withSign negative y) := by
  obtain ⟨first, rest, rfl, hfirst⟩ := h.begins
  have hmagnitude := h.magnitude?_eq
  cases negative with
  | false =>
    rw [if_neg Bool.false_ne_true, ofString?_of_plain h.plain, splitSign_of_isDigit hfirst,
      word?_of_isDigit hfirst, Option.none_or, hmagnitude]
    rfl
  | true =>
    have hplain : ∀ c ∈ '-' :: first :: rest, IsPlain c :=
      List.forall_mem_cons.mpr ⟨.of_mem (by decide), h.plain⟩
    have hsign : splitSign ('-' :: first :: rest) = (true, first :: rest) := rfl
    rw [if_pos rfl, ofString?_of_plain hplain, hsign, word?_of_isDigit hfirst, Option.none_or,
      hmagnitude]
    rfl

theorem digits {chars : List Char} (h : IsDigits chars) : Reads chars (ofDigits chars) := by
  obtain ⟨first, rest, rfl⟩ := List.exists_cons_of_ne_nil h.nonempty
  exact ⟨fun c hc => .of_isDigit (h.isDigit c hc), ⟨_, _, rfl, h.isDigit _ List.mem_cons_self⟩,
    magnitude?_of_isDigit h.nonempty h.isDigit⟩

end Reads

end Calculator.Decimal
