import Calculator.Proofs.Parsing.Acceptance

namespace Calculator

-- Tokens of which each begins before all that come behind it.
def Increasing (tokens : List Token) : Prop :=
  tokens.Pairwise fun first second => first.span.start < second.span.start

theorem Increasing.sublist {tokens some : List Token} (h : Increasing tokens)
    (hsome : some.Sublist tokens) : Increasing some :=
  List.Pairwise.sublist hsome h

theorem Increasing.lt_of_append {front back : List Token} (h : Increasing (front ++ back))
    {first second : Token} (hfirst : first ∈ front) (hsecond : second ∈ back) :
    first.span.start < second.span.start :=
  (List.pairwise_append.mp h).2.2 first hfirst second hsecond

theorem Tiles.start_le_eof {file : String} {start : Cursor} {chars : List Char}
    {tokens : List Token} {eof : Token} (h : Tiles file start chars tokens eof) :
    (start.offset : Int) ≤ eof.span.start := by
  obtain ⟨cursor, rfl, hoffset⟩ := h.eof_eq
  simp only [Cursor.eof, Cursor.start_span, hoffset]
  omega

theorem Tiles.increasing_eof {file : String} {start : Cursor} {chars : List Char}
    {tokens : List Token} {eof : Token} (h : Tiles file start chars tokens eof) :
    Increasing (tokens ++ [eof]) := by
  induction h with
  | eof separators => exact List.pairwise_singleton _ _
  | @token start blanks chars rest lexeme tokens eof separators munch tiles ih =>
    refine List.Pairwise.cons (fun token htoken => ?_) ih
    have hbehind : (((start.pastAll blanks).pastAll lexeme.chars).offset : Int) ≤
        token.span.start := by
      rcases List.mem_append.mp htoken with htoken | htoken
      · exact tiles.start_le token htoken
      · rw [List.mem_singleton.mp htoken]
        exact tiles.start_le_eof
    have hlength : 0 < lexeme.chars.length := List.length_pos_iff.mpr munch.spells.nonempty
    rw [Cursor.offset_pastAll] at hbehind
    rw [Lexeme.span_token, Cursor.start_span]
    omega

theorem Lexer.increasing_tokenize (source : Source) (file : String) :
    Increasing ({ source, file } : Lexer).tokenize.1 :=
  (Lexer.drain_tiles { source, file } rfl).increasing_eof

theorem Lexer.kind_eof (lexer : Lexer) : lexer.drain.eof.kind = .eof := by
  by_cases hend : lexer.read.1.kind = .eof
  · rw [drain_of_end hend]
    exact hend
  · rw [drain_of_next hend]
    exact kind_eof lexer.read.2
termination_by lexer.size
decreasing_by exact lexer.size_read_lt hend

theorem Lexer.kind_ne_eof {lexer : Lexer} : ∀ token ∈ lexer.drain.tokens, token.kind ≠ .eof := by
  by_cases hend : lexer.read.1.kind = .eof
  · rw [drain_of_end hend]
    simp
  · rw [drain_of_next hend]
    exact List.forall_mem_cons.mpr ⟨hend, kind_ne_eof⟩
termination_by lexer.size
decreasing_by exact lexer.size_read_lt hend

namespace Parser.State

-- The tokens that are left and the end behind them.
def upcoming (state : State) : List Token := state.rest ++ [state.eof]

theorem next_mem_upcoming (state : State) : state.next ∈ state.upcoming := by
  unfold next upcoming
  cases state.rest <;> simp

theorem next_le {state : State} (h : Increasing state.upcoming) :
    ∀ token ∈ state.upcoming, state.next.span.start ≤ token.span.start := by
  unfold next upcoming at *
  cases hrest : state.rest with
  | nil => simp
  | cons first rest =>
    rw [hrest] at h
    have hfirst := (List.pairwise_cons.mp h).1
    intro token htoken
    rcases List.mem_cons.mp htoken with rfl | htoken
    · exact Int.le_refl _
    · exact Int.le_of_lt (hfirst token htoken)

-- A reading whose tokens stand in order, with the end of the text behind them.
structure InPlace (state : State) : Prop where
  eof : state.eof.kind = .eof
  increasing : Increasing state.upcoming

namespace LeadsTo

variable {state after : State}

theorem upcoming (h : state.LeadsTo after) : after.upcoming <:+ state.upcoming := by
  obtain ⟨taken, htaken⟩ := h.rest
  refine ⟨taken, ?_⟩
  rw [State.upcoming, State.upcoming, h.eof, ← htaken, List.append_assoc]

theorem inPlace (h : state.LeadsTo after) (hstate : state.InPlace) : after.InPlace :=
  ⟨h.ended hstate.eof, hstate.increasing.sublist h.upcoming.sublist⟩

theorem next_le (h : state.LeadsTo after) (hstate : state.InPlace) :
    state.next.span.start ≤ after.next.span.start :=
  State.next_le hstate.increasing _ (h.upcoming.subset after.next_mem_upcoming)

end LeadsTo

end Parser.State

-- The state in which all that is left to a lexer is to be read.
def Parser.State.ofLexer (lexer : Lexer) : Parser.State :=
  { rest := lexer.drain.tokens, eof := lexer.drain.eof }

namespace Reading

open Grammar Calculator.Parser

variable (source : Source) (file : String)

theorem inPlace : State.InPlace (.ofLexer { source, file }) :=
  ⟨Lexer.kind_eof _, Lexer.increasing_tokenize source file⟩

theorem reads :
    Reads maxNesting (.one .expression) (.ofLexer { source, file })
      (ofSource source file).expression
      (Rule.expression maxNesting (.ofLexer { source, file })).2 := by
  have hreads := Rule.expression_reads maxNesting _ (inPlace source file).eof
  have hexpression : (ofSource source file).expression =
      (Rule.expression maxNesting (.ofLexer { source, file })).1 := State.takeExpression_fst rfl
  rw [hexpression]
  exact hreads

theorem derivation_of_tokens {tokens : List Token} {eof : Token} (heof : eof.kind = .eof)
    (h : (ofTokens tokens eof).diagnostics = []) :
    ∃ d : Derivation (.one .expression), d.Within tokens ∧
      (ofTokens tokens eof).expression = d.tree := by
  have hintact : State.Intact { rest := tokens, eof } := ⟨heof, rfl⟩
  have hreports := congrArg List.length h
  simp only [ofTokens, List.length_reverse] at hreports
  obtain ⟨d, hd⟩ := State.derivation_of_takeExpression hintact (Nat.le_of_eq hreports)
  exact ⟨d, hd, (State.takeExpression_of_derivation hintact hd).1⟩

variable {source file}

theorem derivation_of_clean (h : (ofSource source file).diagnostics = []) :
    ∃ d : Derivation (.one .expression), d.Within ({ source, file } : Lexer).drain.tokens ∧
      (ofSource source file).expression = d.tree :=
  derivation_of_tokens (Lexer.kind_eof _) h

end Reading

end Calculator
