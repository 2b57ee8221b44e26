import Calculator.Proofs.Parsing.History

namespace Calculator

open Calculator.Parser Grammar

namespace Parser

theorem Rule.primary_of_other {nested : Rule} {state : State}
    (hbegins : Nonterminal.primary.begins state.next.kind = false)
    (hvalid : state.next.kind ≠ .invalid) :
    Rule.primary nested state = Rule.missingOperand state := by
  unfold Rule.primary
  dsimp only
  split <;> simp_all [Nonterminal.begins]

namespace Reads

variable {levels : Nat} {symbol : Symbol} {state after : State} {meaning : Meaning symbol}

theorem begins_number {number : Expression} (h : Reads levels (.one .number) state number after) :
    state.next.kind = .number := by
  cases h <;> assumption

-- Each way is the one that the rule goes: `operators` has the fuel for all steps of it.
theorem makes (h : Reads levels symbol state meaning after) (heof : state.eof.kind = .eof) :
    Makes levels symbol state meaning after := by
  induction h with
  | tooDeep => rfl
  | binding isLet hname hequals hbody ih =>
    have hended := (State.LeadsTo.expect hequals).ended ((State.LeadsTo.expect hname).ended heof)
    have hrule := ih hended
    simp only [Makes, Rule.of, Rule.expression, isLet, Rule.binding, hname, hequals] at hrule ⊢
    rw [hrule]
  | ifThen isIf hcondition hthen hbody noElse hend ihCondition ihBody =>
    have hended := (State.LeadsTo.expect hthen).ended (hcondition.leadsTo.ended heof)
    have hfirst := ihCondition heof
    have hsecond := ihBody hended
    simp only [Makes, Rule.of, Rule.expression, isIf, Rule.conditional] at hfirst hsecond ⊢
    simp only [hfirst, hthen, hsecond, noElse, hend, if_false]
  | ifThenElse isIf hcondition hthen hbody isElse hotherwise hend ihCondition ihBody ihOtherwise =>
    have hended := (State.LeadsTo.expect hthen).ended (hcondition.leadsTo.ended heof)
    have hfirst := ihCondition heof
    have hsecond := ihBody hended
    have hthird := ihOtherwise (hbody.leadsTo.ended hended)
    simp only [Makes, Rule.of, Rule.expression, isIf, Rule.conditional] at hfirst hsecond hthird ⊢
    simp only [hfirst, hthen, hsecond, isElse, hthird, hend, if_true]
  | comparison noLet noIf hoperands ih =>
    have hrule := ih heof
    simp only [Makes, Rule.of, Rule.expression] at hrule ⊢
    exact hrule
  | chain hfirst hrest ihFirst ihRest =>
    have hoperand := ihFirst heof
    have hsteps := ihRest (hfirst.leadsTo.ended heof)
    simp only [Makes] at hoperand hsteps ⊢
    rw [Rule.of_chain, Rule.chain, hoperand]
    exact hsteps _ _ (Nat.lt_succ_self _)
  | nothing noOperator =>
    intro left fuel hfuel
    obtain ⟨fuel, rfl⟩ := Nat.exists_eq_add_one.mpr (Nat.zero_lt_of_lt hfuel)
    simp only [Rule.operators, noOperator]
    rfl
  | @more levels level state afterOperand after operand steps isOperator hoperand hrest ihOperand
      ihRest =>
    intro left fuel hfuel
    obtain ⟨fuel, rfl⟩ := Nat.exists_eq_add_one.mpr (Nat.zero_lt_of_lt hfuel)
    have hright := ihOperand heof
    have hlength := hoperand.leadsTo.length_lt heof (level.ne_eof_of_holds isOperator)
    simp only [Makes] at hright
    simp only [Rule.operators, isOperator, if_true, hright]
    exact ihRest (hoperand.leadsTo.ended heof) _ _ (by omega)
  | literal hnumber ih =>
    have hrule := ih heof
    simp only [Makes, Rule.of, Rule.primary, hnumber.begins_number] at hrule ⊢
    exact hrule
  | reference isName => simp only [Makes, Rule.of, Rule.primary, isName]
  | group isLeft hinner hright ih =>
    have hrule := ih heof
    simp only [Makes, Rule.of, Rule.primary, isLeft, Rule.parenthesized] at hrule ⊢
    rw [hrule, hright]
  | invalid isInvalid => simp only [Makes, Rule.of, Rule.primary, isInvalid]
  | @missing levels state closes =>
    have hother : Nonterminal.primary.begins state.next.kind = false ∧
        state.next.kind ≠ .invalid := by
      cases hkind : state.next.kind <;> rw [hkind] at closes <;> revert closes <;> decide
    simp only [Makes, Rule.of, Rule.primary_of_other hother.1 hother.2, Rule.missingOperand, closes,
      if_true]
  | misplaced noClose noPrimary noInvalid =>
    simp only [Makes, Rule.of, Rule.primary_of_other noPrimary noInvalid, Rule.missingOperand,
      noClose]
    rfl
  | integer isWhole noPoint short =>
    simp only [Makes, Rule.of, Rule.number, Rule.integer, noPoint, if_false, Nat.not_lt.mpr short]
  | tooLong isWhole noPoint long =>
    simp only [Makes, Rule.of, Rule.number, Rule.integer, noPoint, if_false, long, if_true]
  | real isWhole isPoint isFraction touching =>
    simp only [Makes, Rule.of, Rule.number, Rule.real, isPoint, isFraction, touching, if_true]
  | spacedReal isWhole isPoint isFraction spaced =>
    simp only [Makes, Rule.of, Rule.number, Rule.real, isPoint, isFraction, spaced, if_true]
    rfl
  | noFraction isWhole isPoint noFraction =>
    simp only [Makes, Rule.of, Rule.number, Rule.real, isPoint, noFraction, if_true, if_false]

end Reads

theorem reads_expression_iff {levels : Nat} {state after : State} {tree : Expression}
    (heof : state.eof.kind = .eof) :
    Reads levels (.one .expression) state tree after ↔
      Rule.expression levels state = (tree, after) := by
  constructor
  · exact fun h => h.makes heof
  · intro h
    have hreads := Rule.expression_reads levels state heof
    rw [Rule.of, h] at hreads
    exact hreads

theorem State.length_takeExpression_lt {state : State} (heof : state.eof.kind = .eof)
    (h : state.rest ≠ []) : state.takeExpression.2.rest.length < state.rest.length := by
  have hpositive := List.length_pos_iff.mpr h
  have hreads := Rule.expression_reads maxNesting { state with abandoned := false } heof
  have hle : (Rule.expression maxNesting { state with abandoned := false }).2.rest.length ≤
      state.rest.length := hreads.leadsTo.rest.length_le
  unfold takeExpression
  dsimp only
  split
  · rename_i hnothing
    split
    · rename_i hempty
      rw [List.isEmpty_iff.mp hempty] at hnothing
      exact absurd hnothing (Nat.ne_of_lt hpositive)
    · rw [State.rest_advance, List.length_tail, hnothing]
      omega
  · omega

end Parser

namespace Lexer

theorem isAtEnd_iff (lexer : Lexer) : lexer.isAtEnd.1 = true ↔ lexer.drain.tokens = [] := by
  rw [isAtEnd, decide_eq_true_eq, peek_fst, read_fst]
  cases htokens : lexer.drain.tokens with
  | nil => simp [lexer.kind_eof]
  | cons token rest => simp [kind_ne_eof token (htokens ▸ List.mem_cons_self)]

theorem peek_skip {lexer other : Lexer} (h : lexer.peek = other.peek) (count : Nat) :
    (lexer.skip count).peek = (other.skip count).peek := by
  cases count with
  | zero => exact h
  | succ count =>
    have hread : lexer.read = other.read := by rw [← read_peek lexer, h, read_peek]
    rw [skip, skip, hread]

theorem skip_skip (lexer : Lexer) (first second : Nat) :
    (lexer.skip first).skip second = lexer.skip (first + second) := by
  induction second with
  | zero => rfl
  | succ second ih => rw [skip_succ, ih, ← Nat.add_assoc, skip_succ]

end Lexer

namespace Reader

-- That so many tokens were taken on the way from a reader to a reader: each of them once, from the
-- front of those that were left. The lexer may have looked at the token that comes next.
structure Consumes (reader : Reader) (count : Nat) (after : Reader) : Prop where
  inside : count ≤ reader.lexer.drain.tokens.length
  lexer : after.lexer.peek = (reader.lexer.skip count).peek
  left : after.lexer.drain.tokens = reader.lexer.drain.tokens.drop count
  consumed : after.consumed = reader.consumed + count

-- Calls until the lexer is at its end, with the expressions they return.
inductive Exhausts : Reader → List Expression → Reader → Prop where
  | ended {reader : Reader} (atEnd : reader.lexer.isAtEnd.1 = true) :
      Exhausts reader [] (reader.serve .isAtEnd)
  | again {reader last : Reader} {trees : List Expression}
      (more : reader.lexer.isAtEnd.1 = false)
      (rest : Exhausts (reader.serve .isAtEnd).takeExpression.2 trees last) :
      Exhausts reader ((reader.serve .isAtEnd).takeExpression.1 :: trees) last

variable {reader after last : Reader} {count count' : Nat} {trees : List Expression}

theorem Matches.consumes {depth : Nat} {state : State} (h : Matches reader depth after state) :
    reader.Consumes (reader.lexer.drain.tokens.length - state.rest.length) after := by
  have hdrain : after.lexer.drain = ⟨state.rest, state.eof, reader.lexer.drain.lexer⟩ := by
    rw [← Lexer.drain_peek, h.peek, Lexer.drain_peek, h.toMirrors.drain]
  have hle := h.rest.length_le
  have hcount := h.consumed
  refine ⟨Nat.sub_le _ _, h.peek, ?_, by omega⟩
  rw [hdrain]
  exact List.suffix_iff_eq_drop.mp h.rest

theorem Consumes.trans (h : reader.Consumes count after) (h' : after.Consumes count' last) :
    reader.Consumes (count + count') last := by
  have hinside := h.inside
  have hinside' := h'.inside
  have hconsumed := h.consumed
  have hconsumed' := h'.consumed
  rw [h.left, List.length_drop] at hinside'
  refine ⟨by omega, ?_, ?_, by omega⟩
  · rw [h'.lexer, Lexer.peek_skip h.lexer, Lexer.skip_skip]
  · rw [h'.left, h.left, List.drop_drop]

theorem consumes_isAtEnd (reader : Reader) : reader.Consumes 0 (reader.serve .isAtEnd) where
  inside := Nat.zero_le _
  lexer := Lexer.peek_peek _
  left := by rw [serve, Lexer.isAtEnd, Lexer.drain_peek, List.drop_zero]
  consumed := rfl

theorem consumes_takeExpression (h : reader.depth = 0) :
    ∃ count, reader.Consumes count reader.takeExpression.2 ∧
      (reader.lexer.drain.tokens ≠ [] → 0 < count) := by
  obtain ⟨_, hafter⟩ := takeExpression_matches h
  refine ⟨_, hafter.consumes, fun hsome => ?_⟩
  have hlt : reader.parser.state.takeExpression.2.rest.length < reader.parser.state.rest.length :=
    State.length_takeExpression_lt reader.lexer.kind_eof hsome
  exact Nat.sub_pos_of_lt hlt

theorem depth_takeExpression (h : reader.depth = 0) : reader.takeExpression.2.depth = 0 :=
  (parser_takeExpression h).2.2

-- One round of the loop: the lexer is asked for its end, and as it is not there, called again.
theorem consumes_round (h : reader.depth = 0) (more : reader.lexer.isAtEnd.1 = false) :
    ∃ count, 0 < count ∧ reader.Consumes count (reader.serve .isAtEnd).takeExpression.2 := by
  have hlooked := reader.consumes_isAtEnd
  have hstart : (reader.serve .isAtEnd).depth = 0 := h
  obtain ⟨count, htaken, hprogress⟩ := consumes_takeExpression hstart
  have hsome : (reader.serve .isAtEnd).lexer.drain.tokens ≠ [] := by
    rw [hlooked.left, List.drop_zero]
    intro hnone
    rw [reader.lexer.isAtEnd_iff.mpr hnone] at more
    cases more
  refine ⟨count, hprogress hsome, ?_⟩
  have hboth := hlooked.trans htaken
  rwa [Nat.zero_add] at hboth

theorem consumes_expectEnd (h : reader.depth = 0) :
    reader.Consumes reader.lexer.drain.tokens.length reader.takeExpression.2.expectEnd := by
  obtain ⟨_, hafter⟩ := takeExpression_matches h
  exact (hafter.toMirrors.passRest false).consumes

theorem Consumes.isAtEnd (h : reader.Consumes reader.lexer.drain.tokens.length after) :
    after.lexer.isAtEnd.1 = true := by
  rw [Lexer.isAtEnd_iff, h.left, List.drop_length]

-- Calls until the lexer is at its end take all tokens, each call one at least.
theorem Exhausts.consumes (h : reader.Exhausts trees last) (hdepth : reader.depth = 0) :
    reader.Consumes reader.lexer.drain.tokens.length last ∧
      trees.length ≤ reader.lexer.drain.tokens.length := by
  induction h with
  | @ended reader atEnd =>
    rw [reader.lexer.isAtEnd_iff.mp atEnd]
    exact ⟨reader.consumes_isAtEnd, Nat.zero_le _⟩
  | @again reader last trees more rest ih =>
    obtain ⟨count, hpositive, hround⟩ := consumes_round hdepth more
    obtain ⟨hrest, hcalls⟩ := ih (depth_takeExpression hdepth)
    have hinside := hround.inside
    have hall := hround.trans hrest
    rw [hround.left, List.length_drop] at hcalls hall
    rw [Nat.add_sub_cancel' hinside] at hall
    exact ⟨hall, by rw [List.length_cons]; omega⟩

-- The loop of calls comes to its end, as fewer tokens are left after each call.
theorem exists_exhausts (h : reader.depth = 0) : ∃ trees last, reader.Exhausts trees last := by
  induction hlength : reader.lexer.drain.tokens.length using Nat.strongRecOn
    generalizing reader with
  | ind length ih =>
    cases hend : reader.lexer.isAtEnd.1 with
    | true => exact ⟨_, _, .ended hend⟩
    | false =>
      obtain ⟨count, hpositive, hround⟩ := consumes_round h hend
      have hinside := hround.inside
      have hless : (reader.serve .isAtEnd).takeExpression.2.lexer.drain.tokens.length < length := by
        rw [hround.left, List.length_drop]
        omega
      have hstart : (reader.serve .isAtEnd).depth = 0 := h
      obtain ⟨trees, last, hrest⟩ := ih _ hless (depth_takeExpression hstart) rfl
      exact ⟨_, _, .again hend hrest⟩

-- With fuel for more calls than there are, a parser makes the same calls.
theorem Exhausts.takeExpressions (h : reader.Exhausts trees last) (hdepth : reader.depth = 0)
    {fuel : Nat} (hfuel : trees.length < fuel) :
    reader.parser.takeExpressions fuel = (trees, last.parser) := by
  obtain ⟨fuel, rfl⟩ := Nat.exists_eq_add_one.mpr (Nat.zero_lt_of_lt hfuel)
  induction h generalizing fuel with
  | @ended reader atEnd =>
    have hend : reader.parser.lexer.isAtEnd.1 = true := atEnd
    simp only [Parser.takeExpressions, hend, if_true]
    rfl
  | @again reader last trees more rest ih =>
    have hend : reader.parser.lexer.isAtEnd.1 = false := more
    have hstart : (reader.serve .isAtEnd).depth = 0 := hdepth
    obtain ⟨htree, hparser, hafter⟩ := parser_takeExpression hstart
    rw [List.length_cons] at hfuel
    obtain ⟨fuel, rfl⟩ :=
      Nat.exists_eq_add_one.mpr (Nat.zero_lt_of_lt (Nat.lt_of_succ_lt_succ hfuel))
    have hothers := ih hafter fuel (Nat.lt_of_succ_lt_succ hfuel)
    have hlooked : { reader.parser with lexer := reader.parser.lexer.isAtEnd.2 } =
        (reader.serve .isAtEnd).parser := rfl
    rw [Parser.takeExpressions]
    simp only [hend, hlooked, ← htree, ← hparser, hothers]
    rfl

theorem reading_eq (source : Source) (file : String) :
    let fresh : Reader := { lexer := { source, file } }
    Reading.ofSource source file =
      ⟨fresh.takeExpression.1, fresh.takeExpression.2.expectEnd.diagnostics⟩ := by
  intro fresh
  have hdepth : fresh.depth = 0 := rfl
  obtain ⟨htree, hafter⟩ := takeExpression_matches hdepth
  have hpassed := (hafter.toMirrors.passRest false).diagnostics
  rw [expectEnd, hpassed, htree, Bool.false_or]
  rfl

end Reader

-- From wherever a reader is called there is exactly one way through the rules, none of which can
-- fail or run out of fuel. The call passes tokens from the front, one at least if any are left. So
-- a loop of calls ends after at most as many calls as there are tokens, and reading a whole source
-- leaves the lexer at its end; both take every token once.
theorem reading_always_ends (lexer : Lexer) (held : List Diagnostic) (history : List Call) :
    let reader := ({ lexer, diagnostics := held } : Reader).serveAll history
    let begun : State := { reader.parser.state with abandoned := false }
    let tokens := reader.lexer.drain.tokens
    (∃ reached, ∀ tree after, Reads maxNesting (.one .expression) begun tree after ↔
      tree = reader.takeExpression.1 ∧ after = reached) ∧
    (∃ count, reader.Consumes count reader.takeExpression.2 ∧ (tokens ≠ [] → 0 < count)) ∧
    (∃ trees last, reader.Exhausts trees last ∧ trees.length ≤ tokens.length ∧
      reader.Consumes tokens.length last ∧ last.lexer.isAtEnd.1 = true ∧
      reader.parser.takeAll = (trees, last.parser)) ∧
    (reader.Consumes tokens.length reader.takeExpression.2.expectEnd ∧
      reader.takeExpression.2.expectEnd.lexer.isAtEnd.1 = true) ∧
    ∀ source file, let fresh : Reader := { lexer := { source, file } }
      Reading.ofSource source file =
        ⟨fresh.takeExpression.1, fresh.takeExpression.2.expectEnd.diagnostics⟩ := by
  intro reader begun tokens
  have hdepth : reader.depth = 0 := (Reader.parser_serveAll rfl history).2
  have hall := Reader.consumes_expectEnd hdepth
  obtain ⟨htree, _⟩ := Reader.takeExpression_matches hdepth
  have hlistening : begun.abandoned = false := rfl
  have hended : begun.eof.kind = .eof := reader.lexer.kind_eof
  have hrule : reader.takeExpression.1 = (Rule.expression maxNesting begun).1 :=
    htree.trans (State.takeExpression_fst hlistening)
  refine ⟨⟨(Rule.expression maxNesting begun).2, fun tree after => ?_⟩,
    Reader.consumes_takeExpression hdepth, ?_, ⟨hall, hall.isAtEnd⟩, Reader.reading_eq⟩
  · rw [reads_expression_iff hended, hrule, Prod.ext_iff, eq_comm, eq_comm (a := after)]
  · obtain ⟨trees, last, hloop⟩ := Reader.exists_exhausts hdepth
    obtain ⟨hconsumes, hcalls⟩ := hloop.consumes hdepth
    exact ⟨trees, last, hloop, hcalls, hconsumes, hconsumes.isAtEnd,
      hloop.takeExpressions hdepth (Nat.lt_succ_of_le hcalls)⟩

-- A parenthesis that closes nothing is taken by the call, though it ends what is around it.
theorem stray_parenthesis_taken :
    let reader : Reader := { lexer := { source := .ofString ")" } }
    ∃ count, reader.Consumes count reader.takeExpression.2 ∧ 0 < count := by
  intro reader
  have hlength : reader.lexer.drain.tokens.length = 1 := by cbv
  have hsome : reader.lexer.drain.tokens ≠ [] := List.ne_nil_of_length_eq_add_one hlength
  obtain ⟨_, ⟨count, hconsumes, hprogress⟩, _⟩ :=
    reading_always_ends { source := .ofString ")" } [] []
  exact ⟨count, hconsumes, hprogress hsome⟩

end Calculator
