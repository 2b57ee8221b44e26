import Calculator.Proofs.Decimal.Numerals
import Calculator.Proofs.Decimal.Range

namespace Calculator

namespace Decimal

theorem ofScaled_neg (digits count : Nat) :
    ofScaled ⟨digits, -(count : Int)⟩ = nearest digits (10 ^ count) := by
  have hnone : (-(count : Int)).toNat = 0 := by omega
  have hall : (-(-(count : Int))).toNat = count := by omega
  rw [ofScaled_eq_nearest, Scaled.num, Scaled.den, hnone, hall, Nat.pow_zero, Nat.mul_one]

theorem digitsValue_append (front back : List Char) :
    digitsValue (front ++ back) = digitsValue front * 10 ^ back.length + digitsValue back := by
  have hsplit : digitsValue (front ++ back) = Nat.ofDigitChars 10 back (digitsValue front) :=
    Nat.ofDigitChars_append 0
  rw [hsplit, Nat.ofDigitChars_eq_ofDigitChars_zero, Nat.mul_comm]
  rfl

theorem magnitude?_of_parts {whole fraction : List Char} (hsome : whole ≠ [])
    (hwhole : ∀ c ∈ whole, c.isDigit = true) (hfraction : ∀ c ∈ fraction, c.isDigit = true) :
    magnitude? (whole ++ '.' :: fraction) = some (ofParts whole fraction) := by
  obtain ⟨htake, hdrop⟩ :=
    takeWhile_isDigit_append hwhole (show '.'.isDigit = false by rfl) fraction
  have hlast : fraction.takeWhile Char.isDigit = fraction ∧
      fraction.dropWhile Char.isDigit = [] := by
    have happend : fraction ++ [] = fraction := List.append_nil fraction
    rw [← happend, List.takeWhile_append_of_pos hfraction, List.dropWhile_append_of_pos hfraction]
    simp
  simp only [magnitude?, htake, hdrop, List.head?_cons, List.tail_cons, hlast.1, hlast.2, if_true,
    hsome, false_and, if_false, exponent?, Option.map_some, Int.zero_sub, ofScaled_neg]
  rfl

theorem Reads.parts {whole fraction : List Char} (hwhole : IsDigits whole)
    (hfraction : ∀ c ∈ fraction, c.isDigit = true) :
    Reads (whole ++ '.' :: fraction) (ofParts whole fraction) := by
  refine ⟨?_, ?_, magnitude?_of_parts hwhole.nonempty hwhole.isDigit hfraction⟩
  · refine List.forall_mem_append.mpr ⟨fun c hc => .of_isDigit (hwhole.isDigit c hc), ?_⟩
    exact List.forall_mem_cons.mpr ⟨.of_mem (by decide), fun c hc => .of_isDigit (hfraction c hc)⟩
  · obtain ⟨first, rest, rfl⟩ := List.exists_cons_of_ne_nil hwhole.nonempty
    exact ⟨first, _, rfl, hwhole.isDigit first List.mem_cons_self⟩

-- Digits with a decimal point among them denote the double nearest to the number they write.
theorem ofString?_of_parts {whole fraction : String} (hsome : whole ≠ "")
    (hwhole : ∀ c ∈ whole.toList, c.isDigit = true)
    (hfraction : ∀ c ∈ fraction.toList, c.isDigit = true) :
    ofString? (whole ++ "." ++ fraction) = some (ofParts whole.toList fraction.toList) := by
  have htext : whole ++ "." ++ fraction =
      String.ofList (whole.toList ++ '.' :: fraction.toList) := by
    rw [String.ext_iff]
    simp
  have hne : whole.toList ≠ [] := by simpa using hsome
  rw [htext]
  exact (Reads.parts ⟨hne, hwhole⟩ hfraction).ofString?_eq false

end Decimal

end Calculator
