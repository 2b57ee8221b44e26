import Calculator.Proofs.Compiling.Literals
import Calculator.Proofs.Decimal.Answers

namespace Calculator

namespace Decimal

theorem exists_of_number? {x : Float} {q : ℚ} (h : number? x = some q) :
    magnitudeBits x < infinityBits ∧ q = signed (isNegative x) (magnitude (magnitudeBits x)) := by
  rcases Nat.lt_or_ge (magnitudeBits x) infinityBits with hfinite | hinfinite
  · rw [number?_eq_some hfinite, Option.some_inj] at h
    exact ⟨hfinite, h.symm⟩
  · rw [number?_eq_none hinfinite] at h
    cases h

end Decimal

theorem toDigits_digits (n : Nat) : Digits (String.ofList (Nat.toDigits 10 n)) :=
  ⟨by simp [Nat.toDigits_ne_nil], by
    rw [String.toList_ofList]
    exact (Decimal.IsDigits.toDigits n).isDigit⟩

namespace Decimal

variable {x : Float}

-- A whole number that is not negative is answered by its digits, and so is a negative zero.
theorem yields_whole (settings : Settings) (hfinite : magnitudeBits x < infinityBits) {whole : Nat}
    (hwhole : magnitude (magnitudeBits x) = whole) (hsign : isNegative x = false ∨ whole = 0) :
    ∃ y, Yields settings (answer x) y ∧ (y == x) = true ∧ answer y = answer x := by
  have hbound := Nat.le_of_lt hfinite
  have hplain : ∀ {y : Float}, magnitudeBits y = magnitudeBits x →
      isNegative y = false ∨ whole = 0 →
      answer y = String.ofList (Nat.toDigits 10 whole) := by
    intro y hy hsign
    have hnone : (isNegative y && whole != 0) = false := by
      rcases hsign with hsign | rfl
      · rw [hsign, Bool.false_and]
      · exact Bool.and_false _
    rw [answer_of_whole (hy ▸ hfinite) (hy ▸ hwhole), hnone]
    rfl
  have hsame := magnitudeBits_ofPattern hbound
  have hyields := (toDigits_digits whole).yields_integer
    (by rw [String.length_ofList]; exact length_toDigits_le hfinite hwhole) settings
  have hvalue : nearest (digitsNumber (String.ofList (Nat.toDigits 10 whole))) 1 =
      ofPattern (magnitudeBits x) := by
    rw [← ofDigits_toDigits hbound hwhole, ofDigits, digitsNumber, String.toList_ofList]
    rfl
  rw [hvalue] at hyields
  refine ⟨_, (hplain rfl hsign).symm ▸ hyields, ?_, ?_⟩
  · refine beq_ofPattern hbound (hsign.imp_right fun hzero => magnitude_eq_zero_iff.mp ?_)
    rw [hwhole, hzero, Nat.cast_zero]
  · rw [hplain rfl hsign, hplain hsame (.inl (isNegative_ofPattern hbound))]

-- A double that is neither whole nor too small is answered by digits with a point among them.
theorem yields_broken (settings : Settings) (hfinite : magnitudeBits x < infinityBits)
    (hlow : 1 / 10000 ≤ magnitude (magnitudeBits x)) (hsign : isNegative x = false)
    (hbroken : ∀ whole : Nat, magnitude (magnitudeBits x) ≠ whole) :
    Yields settings (answer x) x := by
  have hbound := Nat.le_of_lt hfinite
  have hpositive := pos_of_broken hbroken
  obtain ⟨whole, fraction, htext, hwrites⟩ := exists_writes (shortest (magnitudeBits x))
  have hanswer : answer x = String.ofList whole ++ "." ++ String.ofList fraction := by
    rw [answer_of_broken hfinite hbroken, hsign, layout_eq_positional hbound hlow hbroken, htext,
      String.ext_iff]
    simp
  have hfront : Digits (String.ofList whole) :=
    ⟨by simpa using hwrites.isWhole.nonempty, by simpa using hwrites.isWhole.isDigit⟩
  have hback : Digits (String.ofList fraction) :=
    ⟨by simpa using hwrites.isFraction.nonempty, by simpa using hwrites.isFraction.isDigit⟩
  have hyields := hfront.yields_real hback settings
  rw [String.toList_ofList, String.toList_ofList, hwrites.ofParts_eq,
    nearest_shortest hpositive hbound, ← hanswer,
    ofPattern_eq_self hbound hsign] at hyields
  exact hyields

-- Only the answers of negative numbers and of very small ones need not be lines.
theorem yields_answer (settings : Settings) {q : ℚ} (h : number? x = some q)
    (hrange : q = 0 ∨ 1 / 10000 ≤ q) :
    ∃ y, Yields settings (answer x) y ∧ (y == x) = true ∧ answer y = answer x := by
  obtain ⟨hfinite, hq⟩ := exists_of_number? h
  have hnonneg := magnitude_nonneg (magnitudeBits x)
  by_cases hwhole : ∃ whole : Nat, magnitude (magnitudeBits x) = whole
  · obtain ⟨whole, hwhole⟩ := hwhole
    refine yields_whole settings hfinite hwhole ?_
    cases hsign : isNegative x with
    | false => exact .inl rfl
    | true =>
      rw [hsign] at hq
      have hopposite : q = -magnitude (magnitudeBits x) := hq
      have hzero : (whole : ℚ) = 0 := by
        rcases hrange with hzero | hlow <;> linarith
      exact .inr (by exact_mod_cast hzero)
  · have hbroken : ∀ whole : Nat, magnitude (magnitudeBits x) ≠ whole :=
      fun whole heq => hwhole ⟨whole, heq⟩
    have hpositive : 0 < magnitude (magnitudeBits x) :=
      hnonneg.lt_of_ne' (by exact_mod_cast hbroken 0)
    cases hsign : isNegative x with
    | false =>
      rw [hsign] at hq
      have hown : q = magnitude (magnitudeBits x) := hq
      have hlow : 1 / 10000 ≤ magnitude (magnitudeBits x) := by
        rcases hrange with hzero | hlow <;> linarith
      exact ⟨x, yields_broken settings hfinite hlow hsign hbroken,
        beq_self (Nat.le_of_lt hfinite), rfl⟩
    | true =>
      rw [hsign] at hq
      have hopposite : q = -magnitude (magnitudeBits x) := hq
      rcases hrange with hzero | hlow <;> linarith

end Decimal

-- The answer that shows a double denotes the double. If the double is zero, a positive whole number
-- or not less than a ten-thousandth, the answer is also read without a diagnostic, evaluates to the
-- double, and as a line is answered by itself.
theorem answers_read_back (settings : Settings) (x : Float) :
    (x.isNaN = false → ∃ y, Decimal.ofString? (Decimal.answer x) = some y ∧ (y == x) = true) ∧
    ∀ q, Decimal.number? x = some q → (q = 0 ∨ (∃ n : Nat, 0 < n ∧ q = n) ∨ 1 / 10000 ≤ q) →
      (Reading.ofString (Decimal.answer x)).diagnostics = [] ∧
      (∃ y, evaluate (.ofString (Decimal.answer x)) settings = .ok y ∧ (y == x) = true) ∧
      ∃ log, respond settings (Decimal.answer x) =
        .ok { ok := true, lines := [Decimal.answer x], log } := by
  refine ⟨Decimal.ofString?_answer, fun q hnumber hrange => ?_⟩
  have hsmall : q = 0 ∨ 1 / 10000 ≤ q := by
    rcases hrange with hzero | ⟨n, hn, rfl⟩ | hlow
    · exact .inl hzero
    · have hone : (1 : ℚ) ≤ n := by exact_mod_cast hn
      exact .inr (by linarith)
    · exact .inr hlow
  obtain ⟨y, hyields, hbeq, hsame⟩ := Decimal.yields_answer settings hnumber hsmall
  exact ⟨hyields.diagnostics_eq, ⟨y, hyields.evaluate_eq, hbeq⟩, hsame ▸ hyields.respond_eq⟩

-- The double nearest to a tenth.
theorem tenth_reads_back :
    ∃ x : Float, x.isNaN = false ∧
      Decimal.number? x = some (3602879701896397 / 36028797018963968) ∧
      (∃ y, Decimal.ofString? (Decimal.answer x) = some y ∧ (y == x) = true) ∧
      (Reading.ofString (Decimal.answer x)).diagnostics = [] ∧
      (∃ y, evaluate (.ofString (Decimal.answer x)) {} = .ok y ∧ (y == x) = true) ∧
      ∃ log, respond {} (Decimal.answer x) =
        .ok { ok := true, lines := [Decimal.answer x], log } := by
  have hfinite : 0x3FB999999999999A < Decimal.infinityBits := by decide
  have hnan : (Decimal.ofPattern 0x3FB999999999999A).isNaN = false := by
    have hbits := Decimal.magnitudeBits_ofPattern hfinite.le
    rw [Bool.eq_false_iff, ne_eq, Decimal.isNaN_iff, hbits]
    exact Nat.not_lt.mpr hfinite.le
  have hnumber : Decimal.number? (Decimal.ofPattern 0x3FB999999999999A) =
      some (3602879701896397 / 36028797018963968) := by
    rw [Decimal.number?_ofPattern hfinite]
    norm_num [Decimal.magnitude, Decimal.significand, Decimal.scale]
  obtain ⟨hdenoted, hline⟩ := answers_read_back {} (Decimal.ofPattern 0x3FB999999999999A)
  exact ⟨_, hnan, hnumber, hdenoted hnan, hline _ hnumber (.inr (.inr (by norm_num)))⟩

end Calculator
