import Calculator.Proofs.Lexing.Joining

namespace Calculator

-- The text with a space in the place of each character that a span covers.
def Span.blanked (span : Span) (text : List Char) : List Char :=
  text.take span.start.toNat ++ List.replicate span.length.toNat ' ' ++ text.drop span.stop.toNat

theorem head?_blanks (before own behind : List Char) :
    (∀ c ∈ (before ++ (List.replicate own.length ' ' ++ behind)).head?, isSeparator c = true) ∨
      (before ++ (List.replicate own.length ' ' ++ behind)).head? =
        (before ++ (own ++ behind)).head? := by
  cases before with
  | cons c before => exact .inr rfl
  | nil =>
    cases own with
    | nil => exact .inr rfl
    | cons c own => exact .inl (by rintro space ⟨⟩; rfl)

theorem Munch.pastAll_blanks {lexeme : Lexeme} {chars rest : List Char}
    (h : Munch lexeme chars rest) (start : Cursor) :
    start.pastAll (List.replicate lexeme.chars.length ' ') = start.pastAll lexeme.chars := by
  have hspaces : ∀ c ∈ List.replicate lexeme.chars.length ' ', c ≠ '\n' := by
    intro c hc
    rw [List.eq_of_mem_replicate hc]
    decide
  rw [start.pastAll_of_line _ h.spells.ne_newline, start.pastAll_of_line _ hspaces,
    List.length_replicate]

namespace Tiles

variable {file : String} {start : Cursor} {chars : List Char} {front back : List Token}
  {token eof : Token}

theorem without (h : Tiles file start chars (front ++ token :: back) eof) :
    ∃ before own behind, chars = before ++ (own ++ behind) ∧
      token.span.start = (start.offset + before.length : Nat) ∧
      token.span.length = (own.length : Nat) ∧
      Tiles file start (before ++ (List.replicate own.length ' ' ++ behind)) (front ++ back)
        eof := by
  induction front generalizing start chars with
  | nil =>
    cases h with
    | @token _ blanks ahead behind lexeme _ _ separators munch tiles =>
      refine ⟨blanks, lexeme.chars, behind, by rw [munch.split], ?_, rfl, ?_⟩
      · rw [Lexeme.span_token, Cursor.start_span, Cursor.offset_pastAll]
      · refine blank separators (blank (fun c hc => ?_) ?_)
        · rw [List.eq_of_mem_replicate hc]
          rfl
        · rwa [munch.pastAll_blanks]
  | cons first front ih =>
    cases h with
    | @token _ blanks ahead rest lexeme _ _ separators munch tiles =>
      obtain ⟨before, own, behind, rfl, hstart, hlength, htiles⟩ := ih tiles
      refine ⟨blanks ++ (lexeme.chars ++ before), own, behind, ?_, ?_, hlength, ?_⟩
      · rw [munch.split]
        simp only [List.append_assoc]
      · rw [hstart, Cursor.offset_pastAll, Cursor.offset_pastAll]
        simp only [List.length_append]
        omega
      · simp only [List.append_assoc]
        exact .token separators (munch.behind (head?_blanks before own behind)) htiles

-- From the beginning of a text on, the span of the token says which characters those are.
theorem blanked (h : Tiles file {} chars (front ++ token :: back) eof) :
    Tiles file {} (token.span.blanked chars) (front ++ back) eof := by
  obtain ⟨before, own, behind, rfl, hstart, hlength, htiles⟩ := h.without
  have hoffset : ({} : Cursor).offset = 0 := rfl
  have hstop : token.span.stop = (before.length + own.length : Nat) := by
    simp only [Span.stop, Span.start] at hstart ⊢
    omega
  rw [hoffset, Nat.zero_add] at hstart
  have hdrop : (before ++ (own ++ behind)).drop (before.length + own.length) = behind := by
    rw [← List.append_assoc, ← List.length_append, List.drop_left]
  have hblanked : token.span.blanked (before ++ (own ++ behind)) =
      before ++ (List.replicate own.length ' ' ++ behind) := by
    rw [Span.blanked, hstart, hlength, hstop, Int.toNat_natCast, Int.toNat_natCast,
      Int.toNat_natCast, List.take_left, hdrop, List.append_assoc]
  rwa [hblanked]

end Tiles

end Calculator
