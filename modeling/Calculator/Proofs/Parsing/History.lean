import Calculator.Proofs.Parsing.Tracking

namespace Calculator

open Calculator.Parser Grammar

namespace Parser

-- The state if there had been reports before it.
def State.behind (earlier : List Diagnostic) (state : State) : State :=
  { state with reports := state.reports ++ earlier }

namespace State

variable (earlier : List Diagnostic) (state : State)

@[simp] theorem next_behind : (state.behind earlier).next = state.next := rfl

@[simp] theorem rest_behind : (state.behind earlier).rest = state.rest := rfl

@[simp] theorem look_behind : (state.behind earlier).look = state.look.behind earlier := rfl

@[simp] theorem advance_behind :
    (state.behind earlier).advance = state.advance.behind earlier := rfl

@[simp] theorem abandon_behind :
    (state.behind earlier).abandon = state.abandon.behind earlier := rfl

@[simp] theorem report_behind (d : Diagnostic) :
    (state.behind earlier).report d = (state.report d).behind earlier := rfl

@[simp] theorem complain_behind (message : String) (token : Token) :
    (state.behind earlier).complain message token =
      (state.complain message token).behind earlier := by
  unfold complain behind
  dsimp only
  split <;> rfl

@[simp] theorem skipInvalid_behind :
    (state.behind earlier).skipInvalid = state.skipInvalid.behind earlier := by
  simp [skipInvalid, behind]

@[simp] theorem expect_behind (kind : Kind) (what : String) :
    (state.behind earlier).expect kind what =
      ((state.expect kind what).1, (state.expect kind what).2.behind earlier) := by
  unfold expect
  simp only [skipInvalid_behind, next_behind, advance_behind, complain_behind]
  split <;> rfl

end State

-- A rule that does not read what was reported before.
def Rule.Forgets (rule : Rule) : Prop :=
  ∀ (earlier : List Diagnostic) (state : State),
    rule (state.behind earlier) = ((rule state).1, (rule state).2.behind earlier)

namespace Rule

variable {nested operand : Rule}

theorem number_forgets : Forgets number := by
  intro earlier state
  unfold number real integer
  simp only [State.next_behind, State.advance_behind, State.complain_behind]
  split
  · split
    · split <;> rfl
    · rfl
  · split <;> rfl

theorem primary_forgets (h : nested.Forgets) : (primary nested).Forgets := by
  intro earlier state
  have hinner := h earlier state.advance
  unfold primary missingOperand parenthesized
  simp only [State.next_behind, State.advance_behind, State.complain_behind, State.report_behind,
    hinner, State.expect_behind, number_forgets earlier state]
  split
  · rfl
  · rfl
  · rfl
  · rfl
  · split <;> rfl

theorem operators_forget (isOperator : Kind → Bool) (h : operand.Forgets) (fuel : Nat)
    (left : Expression) (earlier : List Diagnostic) (state : State) :
    operators isOperator operand fuel left (state.behind earlier) =
      ((operators isOperator operand fuel left state).1,
        (operators isOperator operand fuel left state).2.behind earlier) := by
  induction fuel generalizing left state with
  | zero => rfl
  | succ fuel ih =>
    unfold operators
    simp only [State.next_behind, State.advance_behind, State.look_behind,
      h earlier state.advance]
    split
    · exact ih _ _
    · rfl

theorem chain_forgets (isOperator : Kind → Bool) (h : operand.Forgets) :
    (chain isOperator operand).Forgets := by
  intro earlier state
  unfold chain
  simp only [h earlier state, State.rest_behind]
  exact operators_forget isOperator h _ _ earlier _

theorem binding_forgets (h : nested.Forgets) : (binding nested).Forgets := by
  intro earlier state
  unfold binding
  simp only [State.next_behind, State.advance_behind, State.expect_behind, h earlier]

theorem conditional_forgets (h : nested.Forgets) : (conditional nested).Forgets := by
  intro earlier state
  unfold conditional
  simp only [State.next_behind, State.advance_behind, State.expect_behind, h earlier]
  split <;> rfl

theorem tooDeep_forgets : Forgets tooDeep := by
  intro earlier state
  unfold tooDeep
  simp only [State.next_behind, State.complain_behind, State.abandon_behind]

theorem expression_forgets (levels : Nat) : (expression levels).Forgets := by
  induction levels with
  | zero => exact tooDeep_forgets
  | succ levels ih =>
    have hcomparison : (comparison (expression levels)).Forgets :=
      chain_forgets _ (chain_forgets _ (chain_forgets _ (primary_forgets ih)))
    intro earlier state
    unfold expression
    simp only [State.next_behind, binding_forgets ih earlier, conditional_forgets ih earlier,
      hcomparison earlier]
    split <;> rfl

end Rule

theorem State.takeExpression_forgets : Rule.Forgets State.takeExpression := by
  intro earlier state
  have hfresh : { state.behind earlier with abandoned := false } =
      ({ state with abandoned := false } : State).behind earlier := rfl
  unfold State.takeExpression
  rw [hfresh, Rule.expression_forgets maxNesting earlier]
  generalize Rule.expression maxNesting { state with abandoned := false } = ruled
  simp only [State.rest_behind, State.look_behind, State.advance_behind]
  by_cases hnothing : ruled.2.rest.length = state.rest.length
  · simp only [hnothing, if_true]
    by_cases hempty : ruled.2.rest.isEmpty = true
    · simp only [hempty, if_true]
    · simp only [hempty, if_false, Bool.false_eq_true]
  · simp only [hnothing, if_false]

end Parser

namespace Lexer

-- At the end of the text: nothing is left to take but the end, however often.
structure Over (lexer : Lexer) : Prop where
  lookahead : ∀ token, lexer.lookahead = some token → token.kind = .eof
  scan : lexer.scan.1.kind = .eof

-- Cutting does not depend on the token that waits.
theorem scan_fst_of_lookahead (lexer : Lexer) (lookahead : Option Token) :
    { lexer with lookahead }.scan.1 = lexer.scan.1 := by
  unfold scan
  dsimp only
  split <;> rfl

theorem scan_scan {lexer : Lexer} (h : lexer.scan.1.kind = .eof) :
    lexer.scan.2.scan.1.kind = .eof := by
  obtain ⟨_, hnothing⟩ := lexer.scan_cuts.of_end h
  have hcuts := lexer.scan.2.scan_cuts
  rw [hnothing] at hcuts
  rw [hcuts.of_nil.1]
  rfl

namespace Over

variable {lexer : Lexer}

theorem peek (h : lexer.Over) : lexer.peek.2.Over := by
  cases hl : lexer.lookahead with
  | none =>
    simp only [Lexer.peek, hl]
    refine ⟨by rintro token ⟨⟩; exact h.scan, ?_⟩
    rw [scan_fst_of_lookahead]
    exact scan_scan h.scan
  | some token =>
    simp only [Lexer.peek, hl]
    exact h

theorem read (h : lexer.Over) : lexer.read.1.kind = .eof ∧ lexer.read.2.Over := by
  cases hl : lexer.lookahead with
  | none =>
    have hnone := lexer.lookahead_scan.trans hl
    rw [read_of_none hl]
    exact ⟨h.scan, by simp [hnone], scan_scan h.scan⟩
  | some token =>
    simp only [Lexer.read, hl]
    refine ⟨h.lookahead token hl, by simp, ?_⟩
    rw [scan_fst_of_lookahead]
    exact h.scan

theorem drain (h : lexer.Over) : lexer.drain.tokens = [] := by
  rw [drain_of_end h.read.1]

end Over

theorem lookahead_read (lexer : Lexer) : lexer.read.2.lookahead = none := by
  cases hl : lexer.lookahead with
  | none =>
    rw [read_of_none hl]
    exact lexer.lookahead_scan.trans hl
  | some token => simp only [read, hl]

-- A lexer off which all tokens were taken, one at least, is at the end of its text.
theorem over_skip {lexer : Lexer} (h : lexer.drain.tokens ≠ []) :
    (lexer.skip lexer.drain.tokens.length).Over := by
  obtain ⟨count, hcount⟩ := Nat.exists_eq_add_one.mpr (List.length_pos_iff.mpr h)
  have hnone : (lexer.skip lexer.drain.tokens.length).lookahead = none := by
    rw [hcount, skip_succ]
    exact lookahead_read _
  have hnext := (lexer.skip lexer.drain.tokens.length).read_fst
  rw [drain_skip (Nat.le_refl _), List.drop_length, List.headD_nil] at hnext
  refine ⟨by simp [hnone], ?_⟩
  rw [← read_of_none hnone, hnext]
  exact lexer.kind_eof

end Lexer

namespace Parser

-- A rule that at the end of the text leaves it at that.
def Rule.Stays (rule : Rule) : Prop :=
  ∀ state : State, state.next.kind = .eof →
    (rule state).2.next = state.next ∧ (rule state).2.abandoned = state.abandoned

namespace Rule

theorem primary_stays (nested : Rule) : (primary nested).Stays := by
  intro state hend
  have hprimary : (primary nested state).2 =
      state.complain (Message.expectedExpression state.next) state.next := by
    simp [primary, hend, missingOperand, Kind.closes]
  rw [hprimary]
  unfold State.complain
  split <;> exact ⟨rfl, rfl⟩

theorem chain_stays {isOperator : Kind → Bool} {operand : Rule} (heof : isOperator .eof = false)
    (h : operand.Stays) : (chain isOperator operand).Stays := by
  intro state hend
  obtain ⟨hnext, habandoned⟩ := h state hend
  have hchain : (chain isOperator operand state).2 = (operand state).2.look := by
    simp [chain, operators, hnext, hend, heof]
  rw [hchain]
  exact ⟨hnext, habandoned⟩

theorem expression_stays (levels : Nat) : (expression (levels + 1)).Stays := by
  intro state hend
  have hexpression : expression (levels + 1) state = comparison (expression levels) state := by
    simp [expression, hend]
  have hcomparison : (comparison (expression levels)).Stays :=
    chain_stays rfl (chain_stays rfl (chain_stays rfl (primary_stays _)))
  rw [hexpression]
  exact hcomparison state hend

end Rule

-- That nothing is left once reading was given up.
def State.Quit (state : State) : Prop := state.abandoned = true → state.rest = []

theorem Move.quit {state after : State} (h : Move state after) (hstate : state.Quit) :
    after.Quit := by
  have hcomplain : ∀ (message : String) (token : Token) {reading : State}, reading.Quit →
      (reading.complain message token).Quit := by
    intro message token reading hreading
    unfold State.complain
    split
    · exact hreading
    · exact hreading
  cases h with
  | look => exact hstate
  | take valid => exact fun habandoned => congrArg List.tail (hstate habandoned)
  | skip invalid => exact fun habandoned => congrArg List.tail (hstate habandoned)
  | blame message count other valid =>
    obtain ⟨hrest, _, _, hsame⟩ := State.advances_eq count state
    refine hcomplain _ _ fun habandoned => ?_
    rw [hrest, hstate (hsame ▸ habandoned), List.drop_nil]
  | giveUp => exact fun _ => rfl

theorem State.abandoned_takeExpression (state : State) :
    state.takeExpression.2.abandoned =
      (Rule.expression maxNesting { state with abandoned := false }).2.abandoned := by
  unfold State.takeExpression
  dsimp only
  split
  · split <;> rfl
  · rfl

-- Reading is given up only after all tokens were taken, and there were some.
theorem over_of_abandoned {parser : Parser} (h : parser.takeExpression.2.abandoned = true) :
    parser.takeExpression.2.lexer.Over := by
  let fresh : State := { parser.state with abandoned := false }
  have hmoves : Moves fresh parser.state.takeExpression.2 :=
    State.moves_takeExpression (Lexer.kind_eof _) rfl
  have hquit : fresh.Quit := by rintro ⟨⟩
  have hrest : parser.state.takeExpression.2.rest = [] := hmoves.keeps Move.quit hquit h
  have hsome : parser.lexer.drain.tokens ≠ [] := by
    intro hnone
    have hend : fresh.next.kind = .eof := by
      have hnext : fresh.next = parser.lexer.drain.tokens.headD parser.lexer.drain.eof := rfl
      rw [hnext, hnone]
      exact Lexer.kind_eof _
    have hstays := (Rule.expression_stays (maxNesting - 1) fresh hend).2
    have habandoned := parser.state.abandoned_takeExpression.symm.trans h
    exact Bool.false_ne_true (hstays.symm.trans habandoned)
  have hall : parser.takeExpression.2.lexer =
      if parser.state.takeExpression.2.ahead then
        (parser.lexer.skip parser.lexer.drain.tokens.length).peek.2
      else parser.lexer.skip parser.lexer.drain.tokens.length := by
    simp only [takeExpression, settle, hrest]
    rfl
  rw [hall]
  split
  · exact (Lexer.over_skip hsome).peek
  · exact Lexer.over_skip hsome

-- A call with what was reported before it in front of what a new parser would report.
theorem takeExpression_fresh (parser : Parser) :
    let fresh : Parser := { lexer := parser.lexer }
    parser.takeExpression = (fresh.takeExpression.1,
      { fresh.takeExpression.2 with
        diagnostics := parser.diagnostics ++ fresh.takeExpression.2.diagnostics }) := by
  intro fresh
  have hforgets := State.takeExpression_forgets parser.diagnostics.reverse fresh.state
  have hreset : parser.state.takeExpression =
      (fresh.state.behind parser.diagnostics.reverse).takeExpression := rfl
  unfold takeExpression
  dsimp only
  rw [hreset, hforgets]
  generalize fresh.state.takeExpression = taken
  have hreports : (taken.2.reports ++ parser.diagnostics.reverse).reverse =
      parser.diagnostics ++ taken.2.reports.reverse := by simp
  unfold settle State.behind
  rw [hreports]
  rfl

theorem expectEnd_fresh {parser : Parser} (h : parser.abandoned = true → parser.lexer.Over) :
    let fresh : Parser := { lexer := parser.lexer }
    parser.expectEnd.lexer = fresh.expectEnd.lexer ∧
      parser.expectEnd.diagnostics = parser.diagnostics ++ fresh.expectEnd.diagnostics := by
  intro fresh
  refine ⟨rfl, ?_⟩
  have hsame : leftOver parser.abandoned parser.lexer.drain.tokens =
      leftOver false parser.lexer.drain.tokens := by
    cases habandoned : parser.abandoned with
    | false => rfl
    | true => rw [(h habandoned).drain, leftOver, leftOver]
  simp [expectEnd, settle, State.expectEnd, state, hsame, fresh]

-- What can be asked of a parser, and of the lexer under it.
inductive Call where
  | takeExpression
  | expectEnd
  | peek
  | read
  | isAtEnd

def serve (parser : Parser) : Call → Parser
  | .takeExpression => parser.takeExpression.2
  | .expectEnd => parser.expectEnd
  | .peek => { parser with lexer := parser.lexer.peek.2 }
  | .read => { parser with lexer := parser.lexer.read.2 }
  | .isAtEnd => { parser with lexer := parser.lexer.isAtEnd.2 }

def serveAll (parser : Parser) (calls : List Call) : Parser := calls.foldl serve parser

-- That no tokens are left once reading was given up.
def Quit (parser : Parser) : Prop := parser.abandoned = true → parser.lexer.Over

theorem Quit.serve {parser : Parser} (h : parser.Quit) (call : Call) :
    (parser.serve call).Quit := by
  cases call with
  | takeExpression => exact over_of_abandoned
  | expectEnd =>
    intro habandoned
    have hover := h habandoned
    have hlexer : parser.expectEnd.lexer = parser.lexer.peek.2 := by
      simp [expectEnd, settle, State.expectEnd, state, hover.drain, Lexer.skip]
    rw [Parser.serve, hlexer]
    exact hover.peek
  | peek => exact fun habandoned => (h habandoned).peek
  | read => exact fun habandoned => (h habandoned).read.2
  | isAtEnd => exact fun habandoned => (h habandoned).peek

theorem Quit.serveAll {parser : Parser} (h : parser.Quit) (calls : List Call) :
    (parser.serveAll calls).Quit := by
  induction calls generalizing parser with
  | nil => exact h
  | cons call rest ih => exact ih (h.serve call)

theorem diagnostics_serve (parser : Parser) (call : Call) :
    parser.diagnostics <+: (parser.serve call).diagnostics := by
  cases call with
  | takeExpression =>
    rw [serve, takeExpression_fresh]
    exact List.prefix_append _ _
  | expectEnd =>
    simp only [serve, expectEnd, settle, State.expectEnd, state, List.reverse_append,
      List.reverse_reverse]
    exact List.prefix_append _ _
  | peek => exact List.prefix_rfl
  | read => exact List.prefix_rfl
  | isAtEnd => exact List.prefix_rfl

theorem diagnostics_serveAll (parser : Parser) (calls : List Call) :
    parser.diagnostics <+: (parser.serveAll calls).diagnostics := by
  induction calls generalizing parser with
  | nil => exact List.prefix_rfl
  | cons call rest ih => exact (parser.diagnostics_serve call).trans (ih _)

end Parser

namespace Reader

def serve (reader : Reader) : Call → Reader
  | .takeExpression => reader.takeExpression.2
  | .expectEnd => reader.expectEnd
  | .peek => reader.peek.2
  | .read => { reader with lexer := reader.lexer.read.2 }
  | .isAtEnd => { reader with lexer := reader.lexer.isAtEnd.2 }

def serveAll (reader : Reader) (calls : List Call) : Reader := calls.foldl serve reader

theorem parser_serve {reader : Reader} (h : reader.depth = 0) (call : Call) :
    (reader.serve call).parser = reader.parser.serve call ∧ (reader.serve call).depth = 0 := by
  cases call with
  | takeExpression => exact (parser_takeExpression h).2
  | expectEnd =>
    obtain ⟨hparser, hdepth⟩ := reader.parser_expectEnd
    exact ⟨hparser, hdepth.trans h⟩
  | peek => exact ⟨rfl, h⟩
  | read => exact ⟨rfl, h⟩
  | isAtEnd => exact ⟨rfl, h⟩

theorem parser_serveAll {reader : Reader} (h : reader.depth = 0) (calls : List Call) :
    (reader.serveAll calls).parser = reader.parser.serveAll calls ∧
      (reader.serveAll calls).depth = 0 := by
  induction calls generalizing reader with
  | nil => exact ⟨rfl, h⟩
  | cons call rest ih =>
    obtain ⟨hparser, hdepth⟩ := parser_serve h call
    obtain ⟨hrest, hend⟩ := ih hdepth
    rw [hparser] at hrest
    exact ⟨hrest, hend⟩

theorem takeExpression_fresh {reader : Reader} (h : reader.depth = 0) :
    let fresh : Reader := { lexer := reader.lexer }
    reader.takeExpression.1 = fresh.takeExpression.1 ∧
      reader.takeExpression.2.diagnostics =
        reader.diagnostics ++ fresh.takeExpression.2.diagnostics ∧
      reader.takeExpression.2.lexer = fresh.takeExpression.2.lexer := by
  intro fresh
  have hfresh : fresh.depth = 0 := rfl
  obtain ⟨htree, htaken, _⟩ := parser_takeExpression h
  obtain ⟨hfreshTree, hfreshTaken, _⟩ := parser_takeExpression hfresh
  have hcall : reader.parser.takeExpression = (fresh.parser.takeExpression.1,
      { fresh.parser.takeExpression.2 with
        diagnostics := reader.diagnostics ++ fresh.parser.takeExpression.2.diagnostics }) :=
    reader.parser.takeExpression_fresh
  refine ⟨?_, ?_, ?_⟩
  · rw [htree, hfreshTree, hcall]
  · calc reader.takeExpression.2.diagnostics
        = reader.parser.takeExpression.2.diagnostics := congrArg Parser.diagnostics htaken
      _ = reader.diagnostics ++ fresh.parser.takeExpression.2.diagnostics := by rw [hcall]
      _ = reader.diagnostics ++ fresh.takeExpression.2.diagnostics := by rw [← hfreshTaken]; rfl
  · calc reader.takeExpression.2.lexer
        = reader.parser.takeExpression.2.lexer := congrArg Parser.lexer htaken
      _ = fresh.parser.takeExpression.2.lexer := by rw [hcall]
      _ = fresh.takeExpression.2.lexer := congrArg Parser.lexer hfreshTaken.symm

theorem expectEnd_fresh {reader : Reader} (h : reader.parser.Quit) :
    let fresh : Reader := { lexer := reader.lexer }
    reader.expectEnd.diagnostics = reader.diagnostics ++ fresh.expectEnd.diagnostics ∧
      reader.expectEnd.lexer = fresh.expectEnd.lexer := by
  intro fresh
  obtain ⟨hpassed, _⟩ := reader.parser_expectEnd
  obtain ⟨hfreshPassed, _⟩ := fresh.parser_expectEnd
  obtain ⟨hlexer, hdiagnostics⟩ := Parser.expectEnd_fresh h
  constructor
  · calc reader.expectEnd.diagnostics
        = reader.parser.expectEnd.diagnostics := congrArg Parser.diagnostics hpassed
      _ = reader.diagnostics ++ fresh.parser.expectEnd.diagnostics := hdiagnostics
      _ = reader.diagnostics ++ fresh.expectEnd.diagnostics := by rw [← hfreshPassed]; rfl
  · calc reader.expectEnd.lexer
        = reader.parser.expectEnd.lexer := congrArg Parser.lexer hpassed
      _ = fresh.parser.expectEnd.lexer := hlexer
      _ = fresh.expectEnd.lexer := congrArg Parser.lexer hfreshPassed.symm

end Reader

-- A call of a reader after any calls of it and of its lexer reads what a new reader on that lexer
-- reads, adds what it would report to what was reported before, and leaves the lexer as it would.
-- Between the calls the reader is in no expression, and a parser called likewise is where it is.
theorem calls_forget_history (lexer : Lexer) (held : List Diagnostic) (history : List Call) :
    let reader := ({ lexer, diagnostics := held } : Reader).serveAll history
    let fresh : Reader := { lexer := reader.lexer }
    (reader.takeExpression.1 = fresh.takeExpression.1 ∧
      reader.takeExpression.2.diagnostics =
        reader.diagnostics ++ fresh.takeExpression.2.diagnostics ∧
      reader.takeExpression.2.lexer = fresh.takeExpression.2.lexer) ∧
    (reader.expectEnd.diagnostics = reader.diagnostics ++ fresh.expectEnd.diagnostics ∧
      reader.expectEnd.lexer = fresh.expectEnd.lexer) ∧
    held <+: reader.diagnostics ∧
    reader.depth = 0 ∧
    reader.parser = ({ lexer, diagnostics := held } : Parser).serveAll history ∧
    reader.takeExpression.1 = reader.parser.takeExpression.1 ∧
    reader.takeExpression.2.parser = reader.parser.takeExpression.2 ∧
    reader.expectEnd.parser = reader.parser.expectEnd := by
  intro reader fresh
  let parser : Parser := { lexer, diagnostics := held }
  obtain ⟨hparser, hdepth⟩ : reader.parser = parser.serveAll history ∧ reader.depth = 0 :=
    Reader.parser_serveAll rfl history
  have hquit : reader.parser.Quit := by
    rw [hparser]
    exact Parser.Quit.serveAll (by rintro ⟨⟩) history
  have hheld : held <+: reader.parser.diagnostics := by
    rw [hparser]
    exact parser.diagnostics_serveAll history
  obtain ⟨htree, htaken, _⟩ := Reader.parser_takeExpression hdepth
  obtain ⟨hpassed, _⟩ := reader.parser_expectEnd
  exact ⟨Reader.takeExpression_fresh hdepth, Reader.expectEnd_fresh hquit, hheld, hdepth, hparser,
    htree, htaken, hpassed⟩

end Calculator
