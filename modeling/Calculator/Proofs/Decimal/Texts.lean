import Calculator.Proofs.Decimal.Fractions
import Calculator.Proofs.Decimal.ReadingBack

namespace Calculator.Decimal

attribute [local instance (high)] instPowNat

theorem digitsValue_toDigits (n : Nat) : digitsValue (Nat.toDigits 10 n) = n :=
  Nat.ofDigitChars_ten_toDigits

theorem isDigit_of_mem_zeros {count : Int} : ∀ c ∈ zeros count, c.isDigit = true := by
  intro c hc
  rw [(List.mem_replicate.mp hc).2]
  rfl

theorem digitsValue_zeros (count : Int) : digitsValue (zeros count) = 0 :=
  Nat.ofDigitChars_replicate_zero

theorem digitsValue_zeros_append (count : Int) (digits : List Char) :
    digitsValue (zeros count ++ digits) = digitsValue digits := by
  rw [digitsValue_append, digitsValue_zeros, Nat.zero_mul, Nat.zero_add]

namespace IsDigits

variable {digits : List Char}

theorem zeros_append (count : Int) (h : IsDigits digits) : IsDigits (zeros count ++ digits) :=
  ⟨List.append_ne_nil_of_right_ne_nil _ h.nonempty,
    List.forall_mem_append.mpr ⟨isDigit_of_mem_zeros, h.isDigit⟩⟩

theorem append_zeros (count : Int) (h : IsDigits digits) : IsDigits (digits ++ zeros count) :=
  ⟨List.append_ne_nil_of_left_ne_nil h.nonempty _,
    List.forall_mem_append.mpr ⟨h.isDigit, isDigit_of_mem_zeros⟩⟩

theorem zero : IsDigits ['0'] := ⟨by simp, by simp⟩

end IsDigits

-- Digits with a point among them that write the number of `x`.
structure Writes (whole fraction : List Char) (x : Scaled) : Prop where
  isWhole : IsDigits whole
  isFraction : IsDigits fraction
  value : (digitsValue (whole ++ fraction) : ℚ) / 10 ^ fraction.length = x.value

namespace Writes

theorem ofParts_eq {whole fraction : List Char} {x : Scaled} (h : Writes whole fraction x) :
    ofParts whole fraction = nearest x.num x.den := by
  refine nearest_congr (Nat.pow_pos (by decide)) x.den_pos ?_
  rw [Scaled.num_div_den, ← h.value]
  push_cast
  rfl

theorem of_broken {whole fraction : List Char} {x : Scaled} (hwhole : IsDigits whole)
    (hfraction : IsDigits fraction) (hvalue : digitsValue (whole ++ fraction) = x.digits)
    (hlength : x.exponent = -(fraction.length : Int)) : Writes whole fraction x := by
  refine ⟨hwhole, hfraction, ?_⟩
  rw [hvalue, Scaled.value, hlength, zpow_neg, zpow_natCast, div_eq_mul_inv]

theorem of_whole {x : Scaled} (h : 0 ≤ x.exponent) :
    Writes (Nat.toDigits 10 x.digits ++ zeros x.exponent) ['0'] x := by
  obtain ⟨more, hmore⟩ := Int.eq_ofNat_of_zero_le h
  have hzeros : (zeros x.exponent).length = more := by
    rw [hmore, zeros, List.length_replicate]
    rfl
  refine ⟨.append_zeros _ (.toDigits _), .zero, ?_⟩
  have hlast : digitsValue ['0'] = 0 := rfl
  rw [digitsValue_append, digitsValue_append, digitsValue_zeros, hzeros, hlast,
    digitsValue_toDigits, Scaled.value, hmore, zpow_natCast]
  push_cast
  field_simp
  simp

end Writes

-- The positional text of a number has digits on both sides of its point, and they write it.
theorem exists_writes (x : Scaled) :
    ∃ whole fraction,
      positional (Nat.toDigits 10 x.digits) (digitCount x.digits + x.exponent) =
        whole ++ '.' :: fraction ∧ Writes whole fraction x := by
  have hdigits := IsDigits.toDigits x.digits
  have hnumber := digitsValue_toDigits x.digits
  have hcount : (Nat.toDigits 10 x.digits).length = digitCount x.digits := rfl
  have hsome := digitCount_pos x.digits
  unfold positional
  split_ifs with hfront hinside
  · refine ⟨['0'], zeros (-(digitCount x.digits + x.exponent)) ++ Nat.toDigits 10 x.digits, rfl,
      .of_broken .zero (hdigits.zeros_append _) ?_ ?_⟩
    · have hzero : digitsValue ['0'] = 0 := rfl
      rw [digitsValue_append, digitsValue_zeros_append, hzero, Nat.zero_mul, Nat.zero_add, hnumber]
    · rw [List.length_append, zeros, List.length_replicate]
      omega
  · refine ⟨(Nat.toDigits 10 x.digits).take (digitCount x.digits + x.exponent).toNat,
      (Nat.toDigits 10 x.digits).drop (digitCount x.digits + x.exponent).toNat, rfl,
      .of_broken ⟨?_, fun c hc => hdigits.isDigit c (List.mem_of_mem_take hc)⟩
        ⟨?_, fun c hc => hdigits.isDigit c (List.mem_of_mem_drop hc)⟩ ?_ ?_⟩
    · exact List.ne_nil_of_length_pos (by rw [List.length_take]; omega)
    · exact List.ne_nil_of_length_pos (by rw [List.length_drop]; omega)
    · rw [List.take_append_drop, hnumber]
    · rw [List.length_drop]
      omega
  · have hzeros : digitCount x.digits + x.exponent - (Nat.toDigits 10 x.digits).length =
        x.exponent := by omega
    refine ⟨_, _, ?_, .of_whole (by omega)⟩
    rw [hzeros, List.append_assoc]

-- What `scientific` writes behind the digits of a number.
def exponentChars (exponent : Int) : List Char :=
  'e' :: (if exponent < 0 then '-' else '+') ::
    (zeros (2 - (Nat.toDigits 10 exponent.natAbs).length) ++ Nat.toDigits 10 exponent.natAbs)

theorem exponent?_exponentChars (exponent : Int) :
    exponent? (exponentChars exponent) = some exponent := by
  have hdigits := (IsDigits.toDigits exponent.natAbs).zeros_append
    (2 - (Nat.toDigits 10 exponent.natAbs).length)
  have hvalue := digitsValue_zeros_append (2 - (Nat.toDigits 10 exponent.natAbs).length)
    (Nat.toDigits 10 exponent.natAbs)
  rw [digitsValue_toDigits] at hvalue
  unfold exponentChars
  generalize zeros _ ++ _ = power at *
  have hall := List.all_eq_true.mpr hdigits.isDigit
  split_ifs with hsign
  · simp only [exponent?, splitSign, true_or, hdigits.nonempty, ne_eq, not_false_eq_true, hall,
      and_self, if_true, hvalue]
    exact congrArg some (by omega)
  · simp only [exponent?, splitSign, true_or, hdigits.nonempty, ne_eq, not_false_eq_true, hall,
      and_self, if_true, hvalue, Bool.false_eq_true, if_false]
    exact congrArg some (by omega)

theorem isPlain_of_mem_exponentChars {exponent : Int} :
    ∀ c ∈ exponentChars exponent, IsPlain c := by
  have hdigits := (IsDigits.toDigits exponent.natAbs).zeros_append
    (2 - (Nat.toDigits 10 exponent.natAbs).length)
  refine List.forall_mem_cons.mpr ⟨.of_mem (by decide), List.forall_mem_cons.mpr ⟨?_, ?_⟩⟩
  · split_ifs <;> exact .of_mem (by decide)
  · exact fun c hc => .of_isDigit (hdigits.isDigit c hc)

theorem magnitude?_of_exponent {whole fraction : List Char} (exponent : Int)
    (hwhole : IsDigits whole) (hfraction : ∀ c ∈ fraction, c.isDigit = true) :
    magnitude? (whole ++ (if fraction = [] then [] else '.' :: fraction) ++
        exponentChars exponent) =
      some (ofScaled ⟨digitsValue (whole ++ fraction), exponent - fraction.length⟩) := by
  have hexponent := exponent?_exponentChars exponent
  obtain ⟨rest, hrest⟩ : ∃ rest, exponentChars exponent = 'e' :: rest := ⟨_, rfl⟩
  rw [hrest] at hexponent ⊢
  by_cases hnone : fraction = []
  · obtain ⟨htake, hdrop⟩ :=
      takeWhile_isDigit_append hwhole.isDigit (show 'e'.isDigit = false by rfl) rest
    subst hnone
    rw [if_pos rfl, List.append_nil]
    simp [magnitude?, htake, hdrop, hwhole.nonempty, hexponent]
  · obtain ⟨htake, hdrop⟩ := takeWhile_isDigit_append hwhole.isDigit
      (show '.'.isDigit = false by rfl) (fraction ++ 'e' :: rest)
    obtain ⟨hlast, hbehind⟩ :=
      takeWhile_isDigit_append hfraction (show 'e'.isDigit = false by rfl) rest
    rw [if_neg hnone, List.append_assoc, List.cons_append]
    simp [magnitude?, htake, hdrop, hlast, hbehind, hwhole.nonempty, hexponent]

theorem scientific_eq (digits : List Char) (exponent : Int) :
    scientific digits exponent =
      digits.take 1 ++ (if digits.drop 1 = [] then [] else '.' :: digits.drop 1) ++
        exponentChars exponent := by
  have hnone : digits.drop 1 = [] ↔ digits.length ≤ 1 := List.drop_eq_nil_iff
  simp only [scientific, exponentChars, hnone, List.append_assoc, List.cons_append]

namespace Reads

theorem writes {whole fraction : List Char} {x : Scaled} (h : Writes whole fraction x) :
    Reads (whole ++ '.' :: fraction) (nearest x.num x.den) := by
  rw [← h.ofParts_eq]
  exact .parts h.isWhole h.isFraction.isDigit

theorem scientific (x : Scaled) :
    Reads (scientific (Nat.toDigits 10 x.digits) (digitCount x.digits + x.exponent - 1))
      (nearest x.num x.den) := by
  have hdigits := IsDigits.toDigits x.digits
  have hnumber := digitsValue_toDigits x.digits
  have hcount : (Nat.toDigits 10 x.digits).length = digitCount x.digits := rfl
  rw [scientific_eq, ← hcount]
  generalize Nat.toDigits 10 x.digits = digits at *
  obtain ⟨first, rest, rfl⟩ := List.exists_cons_of_ne_nil hdigits.nonempty
  obtain ⟨hfirst, hrest⟩ := List.forall_mem_cons.mp hdigits.isDigit
  have htake : (first :: rest).take 1 = [first] := rfl
  have hdrop : (first :: rest).drop 1 = rest := rfl
  rw [htake, hdrop]
  refine ⟨List.forall_mem_append.mpr ⟨List.forall_mem_append.mpr
    ⟨List.forall_mem_singleton.mpr (.of_isDigit hfirst), ?_⟩, isPlain_of_mem_exponentChars⟩,
    ⟨first, _, rfl, hfirst⟩, ?_⟩
  · split_ifs
    · simp
    · exact List.forall_mem_cons.mpr ⟨.of_mem (by decide), fun c hc => .of_isDigit (hrest c hc)⟩
  · have hshift : ((first :: rest).length : Int) + x.exponent - 1 - rest.length = x.exponent := by
      rw [List.length_cons]
      omega
    rw [magnitude?_of_exponent _ ⟨by simp, List.forall_mem_singleton.mpr hfirst⟩ hrest,
      List.singleton_append, hnumber, hshift, ofScaled_eq_nearest]

end Reads

-- The text of a number denotes it, whichever form it has.
theorem reads_layout (x : Scaled) : Reads x.layout (nearest x.num x.den) := by
  unfold Scaled.layout
  dsimp only
  split_ifs
  · obtain ⟨whole, fraction, htext, hwrites⟩ := exists_writes x
    have hreads := Reads.writes hwrites
    rw [← htext] at hreads
    exact hreads
  · exact .scientific x

end Calculator.Decimal
