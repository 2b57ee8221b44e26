import Calculator.Proofs.Parsing.Moves

namespace Calculator

open Calculator.Parser

def Diagnostic.isLexical (diagnostic : Diagnostic) : Bool := diagnostic.kind = .lexical

-- That the diagnostic says that reading was given up.
def Diagnostic.isNesting (diagnostic : Diagnostic) : Bool :=
  diagnostic.kind = .syntactic && diagnostic.message = Message.tooDeep

def Token.isInvalid (token : Token) : Bool := token.kind = .invalid

-- That the token stands before those at which reading was given up.
def Token.isReached (diagnostics : List Diagnostic) (token : Token) : Bool :=
  (diagnostics.filter Diagnostic.isNesting).all fun diagnostic =>
    diagnostic.span.any fun span => token.span.start < span.start

-- The reports that invalid characters among tokens are due.
def characterReports (tokens : List Token) : List Diagnostic :=
  (tokens.filter Token.isInvalid).map invalidCharacter

theorem characterReports_append (first second : List Token) :
    characterReports (first ++ second) = characterReports first ++ characterReports second := by
  simp [characterReports]

theorem characterReports_eq_nil {tokens : List Token}
    (h : ∀ token ∈ tokens, token.kind ≠ .invalid) : characterReports tokens = [] := by
  simpa [characterReports, List.filter_eq_nil_iff, Token.isInvalid] using h

namespace Parser

-- Reports at tokens already met, the latest one at the furthest of them.
structure Anchored (tokens : List Token) (state : State) : Prop where
  place : state.InPlace
  upcoming : state.upcoming <:+ tokens
  anchors : ∀ d ∈ state.reports, ∃ token ∈ tokens, d.span = some token.span ∧
    token.span.start ≤ state.next.span.start
  ordered : (state.reports.filterMap Diagnostic.span).Pairwise fun later earlier =>
    earlier.start ≤ later.start

variable {tokens : List Token} {state after : State}

theorem Move.anchored (h : Move state after) (hstate : Anchored tokens state) :
    Anchored tokens after := by
  have hleads := h.leadsTo
  have hnext := hleads.next_le hstate.place
  have hmem : state.next ∈ tokens := hstate.upcoming.subset state.next_mem_upcoming
  have hmet : ∀ d ∈ state.reports, ∃ token ∈ tokens, d.span = some token.span ∧
      token.span.start ≤ after.next.span.start := by
    intro d hd
    obtain ⟨token, htoken, hspan, hle⟩ := hstate.anchors d hd
    exact ⟨token, htoken, hspan, Int.le_trans hle hnext⟩
  refine ⟨hleads.inPlace hstate.place, hleads.upcoming.trans hstate.upcoming, ?_, ?_⟩
  · rcases h.reports with hsame | ⟨d, hspan, hreports⟩
    · rwa [hsame]
    · rw [hreports]
      exact List.forall_mem_cons.mpr ⟨⟨state.next, hmem, hspan, hnext⟩, hmet⟩
  · rcases h.reports with hsame | ⟨d, hspan, hreports⟩
    · rw [hsame]
      exact hstate.ordered
    · rw [hreports, List.filterMap_cons_some hspan]
      refine List.Pairwise.cons (fun span hearlier => ?_) hstate.ordered
      obtain ⟨earlier, hearlier, hsome⟩ := List.mem_filterMap.mp hearlier
      obtain ⟨token, _, hanchor, hle⟩ := hstate.anchors earlier hearlier
      rw [hanchor, Option.some.injEq] at hsome
      exact hsome ▸ hle

-- How the reports account for the tokens. While reading goes on, those passed had their invalid
-- characters reported; once it was given up, those before the token where that was.
inductive Account (tokens : List Token) (state : State) : Prop where
  | reading (passed : List Token) (split : tokens = passed ++ state.upcoming)
      (abandoned : state.abandoned = false)
      (lexical : state.reports.filter Diagnostic.isLexical = (characterReports passed).reverse)
      (nesting : state.reports.filter Diagnostic.isNesting = [])
  | givenUp (passed skipped : List Token) (limit : Token)
      (split : tokens = passed ++ limit :: skipped)
      (abandoned : state.abandoned = true) (rest : state.rest = [])
      (lexical : state.reports.filter Diagnostic.isLexical = (characterReports passed).reverse)
      (nesting : state.reports.filter Diagnostic.isNesting = [misplaced Message.tooDeep limit])

namespace Account

-- Tokens are passed while reading goes on, each invalid one with its report.
theorem pass (taken : List Token) (new : List Diagnostic) {passed : List Token}
    (split : tokens = passed ++ state.upcoming)
    (lexical : state.reports.filter Diagnostic.isLexical = (characterReports passed).reverse)
    (nesting : state.reports.filter Diagnostic.isNesting = [])
    (htaken : state.rest = taken ++ after.rest) (heof : after.eof = state.eof)
    (habandoned : after.abandoned = false) (hreports : after.reports = new ++ state.reports)
    (hlexical : new.filter Diagnostic.isLexical = (characterReports taken).reverse)
    (hnesting : new.filter Diagnostic.isNesting = []) : Account tokens after := by
  refine .reading (passed ++ taken) ?_ habandoned ?_ ?_
  · rw [split, State.upcoming, State.upcoming, htaken, heof, List.append_assoc, List.append_assoc]
  · rw [hreports, List.filter_append, hlexical, lexical, characterReports_append,
      List.reverse_append]
  · rw [hreports, List.filter_append, hnesting, nesting, List.nil_append]

end Account

theorem isLexical_misplaced (message : String) (token : Token) :
    (misplaced message token).isLexical = false := rfl

theorem isNesting_misplaced {message : String} (h : message ≠ Message.tooDeep) (token : Token) :
    (misplaced message token).isNesting = false := by
  simp [Diagnostic.isNesting, misplaced, h]

theorem Move.account (h : Move state after) (heof : state.eof.kind = .eof)
    (hstate : Account tokens state) : Account tokens after := by
  cases hstate with
  | reading passed split abandoned lexical nesting =>
    cases h with
    | look => exact .reading passed split abandoned lexical nesting
    | take valid =>
      refine .pass (state.rest.take 1) [] split lexical nesting ?_ rfl abandoned rfl ?_ rfl
      · rw [State.rest_advance, ← List.drop_one, List.take_append_drop]
      · rw [characterReports_eq_nil (State.valid_take_one valid)]
        rfl
    | skip invalid =>
      refine .pass [state.next] [invalidCharacter state.next] split lexical nesting ?_ rfl abandoned
        rfl ?_ rfl
      · exact State.rest_eq_cons heof (invalid ▸ by decide)
      · simp [characterReports, Token.isInvalid, invalid, Diagnostic.isLexical, invalidCharacter]
    | blame message count other valid =>
      obtain ⟨hrest, hadvanced, hreports, hlistening⟩ := State.advances_eq count state
      rw [abandoned] at hlistening
      refine .pass (state.rest.take count) [misplaced message state.next] split lexical nesting
        ?_ ?_ ?_ ?_ ?_ ?_
      · simp [State.complain, hlistening, State.report, hrest]
      · simp [State.complain, hlistening, State.report, hadvanced]
      · simp [State.complain, hlistening, State.report]
      · rw [State.reports_complain _ _ hlistening, hreports]
        rfl
      · rw [characterReports_eq_nil valid]
        rfl
      · simp [isNesting_misplaced other]
    | giveUp =>
      have hreports : (state.complain Message.tooDeep state.next).abandon.reports =
          misplaced Message.tooDeep state.next :: state.reports :=
        State.reports_complain _ _ abandoned
      obtain ⟨skipped, hupcoming⟩ : ∃ skipped, state.upcoming = state.next :: skipped := by
        unfold State.upcoming State.next
        cases state.rest <;> simp
      rw [hupcoming] at split
      refine .givenUp passed skipped state.next split rfl rfl ?_ ?_
      · rw [hreports, List.filter_cons_of_neg (by simp [isLexical_misplaced]), lexical]
      · rw [hreports, List.filter_cons_of_pos (by simp [Diagnostic.isNesting, misplaced]), nesting]
  | givenUp passed skipped limit split abandoned rest lexical nesting =>
    have hcomplain : ∀ {reading : State} (message : String) (token : Token),
        reading.abandoned = true → reading.complain message token = reading := by
      intro reading message token h
      simp [State.complain, h]
    cases h with
    | look => exact .givenUp passed skipped limit split abandoned rest lexical nesting
    | take valid =>
      exact .givenUp passed skipped limit split abandoned (by simp [rest]) lexical nesting
    | skip invalid =>
      have hnext : state.next.kind = .eof := by simp [State.next, rest, heof]
      rw [hnext] at invalid
      cases invalid
    | blame message count other valid =>
      obtain ⟨hrest, _, hreports, hquiet⟩ := State.advances_eq count state
      rw [hcomplain _ _ (hquiet.trans abandoned)]
      exact .givenUp passed skipped limit split (hquiet.trans abandoned) (by simp [hrest, rest])
        (hreports ▸ lexical) (hreports ▸ nesting)
    | giveUp =>
      rw [hcomplain _ _ abandoned]
      exact .givenUp passed skipped limit split rfl rfl lexical nesting

-- While they are made, the reports stay anchored and account for the tokens.
theorem Moves.accounted (h : Moves state after) (hanchored : Anchored tokens state)
    (haccount : Account tokens state) : Anchored tokens after ∧ Account tokens after := by
  have hmove : ∀ {state after : State}, Move state after →
      Anchored tokens state ∧ Account tokens state →
        Anchored tokens after ∧ Account tokens after :=
    fun move h => ⟨move.anchored h.1, move.account h.1.place.eof h.2⟩
  exact h.keeps hmove ⟨hanchored, haccount⟩

-- Read to the end, the tokens before the one at which reading was given up account for all reports
-- of invalid characters.
theorem Account.lexical_of_end (h : Account tokens state) (hincreasing : Increasing tokens)
    (heof : state.eof.kind = .eof) (hrest : state.rest = []) :
    (state.reports.reverse.filter Diagnostic.isNesting).length ≤ 1 ∧
      state.reports.reverse.filter Diagnostic.isLexical =
        characterReports (tokens.filter (Token.isReached state.reports.reverse)) := by
  cases h with
  | reading passed split abandoned lexical nesting =>
    have hall : tokens.filter (Token.isReached state.reports.reverse) = tokens := by
      simp [Token.isReached, List.filter_reverse, nesting]
    have hlast : characterReports [state.eof] = [] := characterReports_eq_nil (by simp [heof])
    refine ⟨by simp [List.filter_reverse, nesting], ?_⟩
    rw [hall, List.filter_reverse, lexical, List.reverse_reverse, split, State.upcoming, hrest,
      List.nil_append, characterReports_append, hlast, List.append_nil]
  | givenUp passed skipped limit split abandoned rest lexical nesting =>
    have hreached : ∀ token : Token, token.isReached state.reports.reverse =
        decide (token.span.start < limit.span.start) := by
      intro token
      simp [Token.isReached, List.filter_reverse, nesting, misplaced]
    have hbefore : passed.filter (Token.isReached state.reports.reverse) = passed := by
      refine List.filter_eq_self.mpr fun token htoken => ?_
      rw [split] at hincreasing
      rw [hreached]
      exact decide_eq_true (hincreasing.lt_of_append htoken (List.mem_cons_self ..))
    have hbehind : (limit :: skipped).filter (Token.isReached state.reports.reverse) = [] := by
      refine List.filter_eq_nil_iff.mpr fun token htoken => ?_
      rw [hreached, decide_eq_true_eq, Int.not_lt]
      rw [split] at hincreasing
      rcases List.mem_cons.mp htoken with rfl | hskipped
      · exact Int.le_refl _
      · have hafter := (List.pairwise_append.mp hincreasing).2.1
        exact Int.le_of_lt ((List.pairwise_cons.mp hafter).1 token hskipped)
    refine ⟨by simp [List.filter_reverse, nesting], ?_⟩
    rw [List.filter_reverse, lexical, List.reverse_reverse, split, List.filter_append, hbefore,
      hbehind, List.append_nil]

end Parser

namespace Reading

theorem accounted (source : Source) (file : String) :
    ∃ final : Parser.State, Anchored ({ source, file } : Lexer).tokenize.1 final ∧
      Account ({ source, file } : Lexer).tokenize.1 final ∧ final.rest = [] ∧
      (ofSource source file).diagnostics = final.reports.reverse := by
  obtain ⟨final, hmoves, hrest, hdiagnostics⟩ := moves source file
  have hanchored : Anchored ({ source, file } : Lexer).tokenize.1 (.ofLexer { source, file }) :=
    { place := inPlace source file
      upcoming := List.suffix_refl _
      anchors := by simp [Parser.State.ofLexer]
      ordered := List.Pairwise.nil }
  have haccount : Account ({ source, file } : Lexer).tokenize.1 (.ofLexer { source, file }) :=
    .reading [] rfl rfl rfl rfl
  obtain ⟨hanchored, haccount⟩ := hmoves.accounted hanchored haccount
  exact ⟨final, hanchored, haccount, hrest, hdiagnostics⟩

theorem anchor_of_mem {source : Source} {file : String} {d : Diagnostic}
    (h : d ∈ (ofSource source file).diagnostics) :
    ∃ token ∈ ({ source, file } : Lexer).tokenize.1, d.span = some token.span := by
  obtain ⟨final, hanchored, _, _, hdiagnostics⟩ := accounted source file
  rw [hdiagnostics, List.mem_reverse] at h
  obtain ⟨token, htoken, hspan, _⟩ := hanchored.anchors d h
  exact ⟨token, htoken, hspan⟩

end Reading

-- Every diagnostic of a text stands at a token of it or at its end, and they are in source order.
-- Those about invalid characters are one for each invalid token, in order, up to the token at which
-- reading was given up, if it was.
theorem diagnostics_anchored (source : Source) (file : String) :
    let tokens := ({ source, file } : Lexer).tokenize.1
    let diagnostics := (Reading.ofSource source file).diagnostics
    (∀ d ∈ diagnostics, ∃ token ∈ tokens, d.span = some token.span) ∧
    ((diagnostics.filterMap Diagnostic.span).Pairwise fun first second =>
      first.start ≤ second.start) ∧
    (diagnostics.filter Diagnostic.isNesting).length ≤ 1 ∧
    diagnostics.filter Diagnostic.isLexical =
      ((tokens.filter (Token.isReached diagnostics)).filter
        Token.isInvalid).map invalidCharacter := by
  intro tokens diagnostics
  obtain ⟨final, hanchored, haccount, hrest, hdiagnostics⟩ := Reading.accounted source file
  obtain ⟨hnesting, hlexical⟩ :=
    haccount.lexical_of_end (Lexer.increasing_tokenize source file) hanchored.place.eof hrest
  have hreports : diagnostics = final.reports.reverse := hdiagnostics
  rw [← hreports] at hnesting hlexical
  refine ⟨fun d hd => Reading.anchor_of_mem hd, ?_, hnesting, hlexical⟩
  rw [hreports, List.filterMap_reverse, List.pairwise_reverse]
  exact hanchored.ordered

end Calculator
