import Calculator.Proofs.Lexing.Blanks
import Calculator.Proofs.Parsing.Omissions
import Calculator.Proofs.Parsing.Places

namespace Calculator

open Grammar Calculator.Parser

namespace Parser

-- At the end of the text an open construct is reported too.
theorem Recovers.at_end {levels : Nat} {symbol : Symbol} {tokens : List Token}
    {repairs : Meaning symbol → Diagnostic → Prop} {closing : Prop}
    (h : Recovers levels symbol tokens repairs closing) :
    Falters levels symbol tokens [] (fun meaning d => ¬closing → repairs meaning d) closing := by
  rcases h with ⟨hclosing, hopen⟩ | hfalters
  · exact .closing hclosing (hopen.falters (by simp))
  · exact hfalters [] (by simp [Symbol.Ends])

theorem State.takeExpression_of_falters {state : State} {tokens : List Token} {closing : Prop}
    {repairs : Expression → Diagnostic → Prop} (hstate : state.Intact) (hrest : state.rest = tokens)
    (hnonempty : tokens ≠ [])
    (h : Falters maxNesting (.one .expression) tokens []
      (fun meaning d => ¬closing → repairs meaning d) closing) :
    ∃ d, state.takeExpression.2.expectEnd.reports = d :: state.reports ∧ d.kind = .syntactic ∧
      (¬closing → repairs state.takeExpression.1 d) := by
  have hlength : 0 < state.rest.length := by
    rw [hrest]
    exact List.length_pos_iff.mpr hnonempty
  rcases h state hstate (by rw [hrest, List.append_nil]) with
    ⟨meaning, d, after, hmakes, hrepairs, hresumes⟩ | ⟨hclosing, token, hgives⟩
  · simp only [Makes, Rule.of] at hmakes
    have htaken : state.takeExpression = (meaning, after) := by
      rw [takeExpression_of_lt hstate.abandoned, hmakes]
      rwa [hmakes, hresumes.rest]
    refine ⟨d, ?_, hresumes.syntactic, fun hnot => ?_⟩
    · simp [htaken, expectEnd, hresumes.rest, hresumes.reports, leftOver]
    · rw [htaken]
      exact hrepairs hnot
  · exact ⟨misplaced Message.tooDeep token, takeExpression_of_givesUp hstate hlength hgives, rfl,
      fun hnot => absurd hclosing hnot⟩

end Parser

theorem Increasing.omits {front back : List Token} {token : Token}
    (h : Increasing (front ++ token :: back)) :
    Omits (front ++ token :: back) front token back := by
  refine ⟨rfl, fun hmem => ?_⟩
  rcases List.mem_append.mp hmem with hfront | hback
  · exact Int.lt_irrefl _ (h.lt_of_append hfront List.mem_cons_self)
  · exact Int.lt_irrefl _ ((List.pairwise_cons.mp (List.pairwise_append.mp h).2.1).1 token hback)

theorem Reading.ofTokens_of_omits {d : Derivation (.one .expression)}
    {tokens front back : List Token} {token eof : Token} (hd : d.Within tokens)
    (heof : eof.kind = .eof) (homits : Omits tokens front token back)
    (hwanted : Wanted front token) :
    ∃ d', (ofTokens (front ++ back) eof).diagnostics = [d'] ∧ d'.kind = .syntactic ∧
      (¬Shuts token → Repaired token back d.tree (ofTokens (front ++ back) eof).expression d') := by
  rw [← hd.tokens] at homits
  have hrecovers := d.isRecovered hd.admissible maxNesting front token back hd.depth homits hwanted
  obtain ⟨first, rest, hfront, _⟩ := Derivation.IsRecovered.begins homits hwanted
  have hintact : State.Intact { rest := front ++ back, eof } := ⟨heof, rfl⟩
  obtain ⟨d', hreports, hkind, hrepaired⟩ :=
    State.takeExpression_of_falters hintact rfl (by simp [hfront]) hrecovers.at_end
  exact ⟨d', by simp [ofTokens, hreports], hkind, hrepaired⟩

-- If spaces take the place of a token that the parser wants in a text that it accepts, a `then`,
-- the `=` or the name of a `let`, an `end` or a closing parenthesis, it reports one problem, which
-- is one of syntax. In the first three cases it points at the next token, and what is read is what
-- was read before, without that token.
theorem one_missing_token_reported_once (source blanked : Source) (file : String)
    (front others : List Token) (token next : Token)
    (haccepted : (Reading.ofSource source file).diagnostics = [])
    (htokens : ({ source, file } : Lexer).tokenize.1 = front ++ token :: next :: others)
    (hwanted : Wanted front token)
    (hblanked : blanked.visible = token.span.blanked source.visible) :
    ∃ d, (Reading.ofSource blanked file).diagnostics = [d] ∧ d.kind = .syntactic ∧
      (token.kind ≠ .endWord ∧ token.kind ≠ .rightParen →
        d.span = some next.span ∧
        (Reading.ofSource blanked file).expression =
          (Reading.ofSource source file).expression.without token) := by
  have htiles := Lexer.drain_tiles { source, file } rfl
  have hincreasing := Lexer.increasing_tokenize source file
  have hsplit : ({ source, file } : Lexer).drain.tokens =
      front ++ token :: (next :: others).dropLast := by
    have hdropped := congrArg List.dropLast htokens
    rw [Lexer.tokenize, List.dropLast_concat] at hdropped
    rw [hdropped, List.dropLast_append_of_ne_nil (by simp)]
    rfl
  have heof := Lexer.kind_eof { source, file }
  obtain ⟨derivation, hwithin, htree⟩ := Reading.derivation_of_clean haccepted
  rw [Lexer.tokenize, hsplit] at hincreasing
  rw [hsplit] at htiles hwithin
  have homits := (hincreasing.sublist (List.sublist_append_left _ _)).omits
  have hrest := Lexer.drain_of_tiles { source := blanked, file } rfl (hblanked ▸ htiles.blanked)
  obtain ⟨d, hdiagnostics, hkind, hrepaired⟩ :=
    Reading.ofTokens_of_omits hwithin heof homits hwanted
  have hreading : Reading.ofSource blanked file =
      Reading.ofTokens (front ++ (next :: others).dropLast)
        ({ source, file } : Lexer).drain.eof := by
    rw [Reading.ofSource, hrest.1, hrest.2]
  rw [hreading]
  refine ⟨d, hdiagnostics, hkind, fun hopening => ?_⟩
  obtain ⟨hmeaning, next', hnext', hspan⟩ := hrepaired (by simp [Shuts, hopening])
  constructor
  · cases others with
    | nil => cases hnext'
    | cons second others =>
      obtain rfl : next = next' := by simpa using hnext'
      exact hspan
  · rw [hmeaning, ← htree]
    rfl

-- A conditional of which the `then` is missing.
theorem then_missing_reported_once :
    ∃ d, (Reading.ofSource (.ofString "if a      b end") "f").diagnostics = [d] ∧
      d.span = some ⟨1, 11, 10, 1, "f"⟩ := by
  have haccepted : (Reading.ofSource (.ofString "if a then b end") "f").diagnostics = [] := by cbv
  obtain ⟨d, hdiagnostics, _, hspan⟩ := one_missing_token_reported_once
    (.ofString "if a then b end") (.ofString "if a      b end") "f"
    [⟨.ifWord, ⟨1, 1, 0, 2, "f"⟩, none⟩, ⟨.identifier, ⟨1, 4, 3, 1, "f"⟩, some "a"⟩]
    [⟨.endWord, ⟨1, 13, 12, 3, "f"⟩, none⟩, ⟨.eof, ⟨1, 16, 15, 0, "f"⟩, none⟩]
    ⟨.thenWord, ⟨1, 6, 5, 4, "f"⟩, none⟩ ⟨.identifier, ⟨1, 11, 10, 1, "f"⟩, some "b"⟩
    haccepted (by cbv) (.inl List.mem_cons_self) (by cbv)
  exact ⟨d, hdiagnostics, (hspan (by simp)).1⟩

end Calculator
