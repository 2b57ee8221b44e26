import Calculator.Proofs.Parsing.Moves
import Calculator.Proofs.Parsing.Reader

namespace Calculator

open Calculator.Parser Grammar

namespace Lexer

theorem peek_peek (lexer : Lexer) : lexer.peek.2.peek = lexer.peek := by
  cases hl : lexer.lookahead <;> simp [peek, hl]

theorem skip_succ (count : Nat) (lexer : Lexer) :
    lexer.skip (count + 1) = (lexer.skip count).read.2 := by
  induction count generalizing lexer with
  | zero => rfl
  | succ count ih => exact ih lexer.read.2

theorem drain_skip {lexer : Lexer} {count : Nat} (h : count ≤ lexer.drain.tokens.length) :
    (lexer.skip count).drain =
      ⟨lexer.drain.tokens.drop count, lexer.drain.eof, lexer.drain.lexer⟩ := by
  induction count generalizing lexer with
  | zero => rfl
  | succ count ih =>
    by_cases hend : lexer.read.1.kind = .eof
    · rw [drain_of_end hend] at h
      simp at h
    · rw [drain_of_next hend] at h ⊢
      exact ih (Nat.le_of_succ_le_succ h)

theorem read_fst (lexer : Lexer) : lexer.read.1 = lexer.drain.tokens.headD lexer.drain.eof := by
  by_cases hend : lexer.read.1.kind = .eof
  · rw [drain_of_end hend]
    rfl
  · rw [drain_of_next hend]
    rfl

-- The lexer when only the tokens of a state are left.
def downTo (lexer : Lexer) (state : State) : Lexer :=
  lexer.skip (lexer.drain.tokens.length - state.rest.length)

end Lexer

namespace Reader

-- A reader that came as far as a state, up to the token that comes next, which it may have looked
-- at. `start` is where both began.
structure Mirrors (start : Reader) (depth : Nat) (reader : Reader) (state : State) : Prop where
  rest : state.rest <:+ start.lexer.drain.tokens
  eof : state.eof = start.lexer.drain.eof
  peek : reader.lexer.peek = (start.lexer.downTo state).peek
  diagnostics : reader.diagnostics = state.reports.reverse
  consumed : reader.consumed + state.rest.length =
    start.consumed + start.lexer.drain.tokens.length
  depth : reader.depth = depth
  abandoned : reader.abandoned = state.abandoned

-- A reader that also looked ahead just if the state did.
structure Matches (start : Reader) (depth : Nat) (reader : Reader) (state : State) : Prop
    extends Mirrors start depth reader state where
  lexer : reader.lexer =
    if state.ahead then (start.lexer.downTo state).peek.2 else start.lexer.downTo state

namespace Mirrors

variable {start reader : Reader} {depth : Nat} {state : State}

theorem drain (h : Mirrors start depth reader state) :
    (start.lexer.downTo state).drain = ⟨state.rest, state.eof, start.lexer.drain.lexer⟩ := by
  have hle := h.rest.length_le
  rw [Lexer.downTo, Lexer.drain_skip (by omega), ← List.suffix_iff_eq_drop.mp h.rest, h.eof]

theorem ended (h : Mirrors start depth reader state) : state.eof.kind = .eof := by
  rw [h.eof]
  exact start.lexer.kind_eof

theorem next (h : Mirrors start depth reader state) : reader.peek.1 = state.next := by
  rw [Reader.peek, h.peek, Lexer.peek_fst, Lexer.read_fst, h.drain]
  rfl

theorem next_ne_eof (h : Mirrors start depth reader state) :
    state.next.kind ≠ .eof ↔ state.rest ≠ [] := by
  have hrest := h.rest.subset
  unfold State.next
  cases hcons : state.rest with
  | nil => simp [h.ended]
  | cons token rest =>
    have htoken := Lexer.kind_ne_eof token (hrest (by simp [hcons]))
    simp [htoken]

theorem look (h : Mirrors start depth reader state) :
    Matches start depth reader.peek.2 state.look := by
  refine ⟨⟨h.rest, h.eof, ?_, h.diagnostics, h.consumed, h.depth, h.abandoned⟩, ?_⟩
  · simp only [Reader.peek, Lexer.peek_peek]
    exact h.peek
  · simp only [Reader.peek, h.peek]
    rfl

theorem peeked (h : Mirrors start depth reader state) : Mirrors start depth reader.peek.2 state :=
  ⟨h.rest, h.eof, h.look.peek, h.diagnostics, h.consumed, h.depth, h.abandoned⟩

theorem advance (h : Mirrors start depth reader state) (hnext : state.next.kind ≠ .eof) :
    reader.advance.1 = state.next ∧ Matches start depth reader.advance.2 state.advance := by
  have hread : reader.lexer.read = (start.lexer.downTo state).read := by
    rw [← Lexer.read_peek, h.peek, Lexer.read_peek]
  have hfirst : (start.lexer.downTo state).read.1 = state.next := by
    rw [Lexer.read_fst, h.drain]
    rfl
  have hcons := congrArg List.length (State.rest_eq_cons h.ended hnext)
  rw [List.length_cons, State.rest_advance] at hcons
  have hle := h.rest.length_le
  have hafter : start.lexer.downTo state.advance = (start.lexer.downTo state).read.2 := by
    rw [Lexer.downTo, Lexer.downTo, ← Lexer.skip_succ, State.rest_advance]
    congr 1
    omega
  refine ⟨by rw [Reader.advance, hread, hfirst],
    ⟨⟨?_, h.eof, ?_, h.diagnostics, ?_, h.depth, h.abandoned⟩, ?_⟩⟩
  · exact (List.tail_suffix _).trans h.rest
  · rw [hafter]
    simp only [Reader.advance, hread]
  · have hconsumed := h.consumed
    simp only [Reader.advance, hread, hfirst, hnext, if_false, State.rest_advance]
    omega
  · rw [hafter]
    simp only [Reader.advance, hread]
    rfl

theorem report (h : Mirrors start depth reader state) (d : Diagnostic) :
    Mirrors start depth (reader.report d) (state.report d) :=
  { h with diagnostics := by simp [Reader.report, State.report, h.diagnostics] }

theorem complain (h : Mirrors start depth reader state) (message : String) (token : Token) :
    Mirrors start depth (reader.complain message token) (state.complain message token) := by
  unfold Reader.complain State.complain
  rw [h.abandoned]
  split
  · exact h
  · exact h.report _

end Mirrors

namespace Matches

variable {start reader : Reader} {depth : Nat} {state : State}

theorem report (h : Matches start depth reader state) (d : Diagnostic) :
    Matches start depth (reader.report d) (state.report d) :=
  ⟨h.toMirrors.report d, h.lexer⟩

theorem complain (h : Matches start depth reader state) (message : String) (token : Token) :
    Matches start depth (reader.complain message token) (state.complain message token) := by
  unfold Reader.complain State.complain
  rw [h.abandoned]
  split
  · exact h
  · exact h.report _

end Matches

namespace Mirrors

variable {start reader : Reader} {depth : Nat} {state : State}

theorem skipInvalid (h : Mirrors start depth reader state) :
    Matches start depth reader.skipInvalid state.skipInvalid := by
  induction hlength : state.rest.length generalizing reader state with
  | zero =>
    have hnil := List.length_eq_zero_iff.mp hlength
    have hnext : ¬reader.peek.1.kind = .invalid := by
      rw [h.next, State.next, hnil, List.headD_nil, h.ended]
      decide
    rw [Reader.skipInvalid, dif_neg hnext, State.skipInvalid_of_rest (by simp [hnil])]
    exact h.look
  | succ count ih =>
    obtain ⟨token, rest, hrest⟩ := List.exists_cons_of_length_eq_add_one hlength
    have hnext := State.next_of_rest hrest
    rw [Reader.skipInvalid]
    by_cases hinvalid : token.kind = .invalid
    · have hvalid : reader.peek.1.kind = .invalid := by rw [h.next, hnext, hinvalid]
      have hend : state.next.kind ≠ .eof := by rw [hnext, hinvalid]; decide
      rw [dif_pos hvalid, State.skipInvalid_of_next hrest hinvalid, h.next, hnext]
      refine ih ((h.peeked.advance hend).2.toMirrors.report _) ?_
      rw [State.report, State.rest_advance, List.length_tail, hlength, Nat.add_sub_cancel]
    · have hvalid : ¬reader.peek.1.kind = .invalid := by rwa [h.next, hnext]
      rw [dif_neg hvalid, State.skipInvalid_of_rest (by simp [hrest, hinvalid])]
      exact h.look

theorem expect (h : Mirrors start depth reader state) (kind : Kind) (what : String)
    (hkind : kind ≠ .eof) :
    (reader.expect kind what).1 = (state.expect kind what).1 ∧
      Matches start depth (reader.expect kind what).2 (state.expect kind what).2 := by
  have hskip := h.skipInvalid
  have hlook : state.skipInvalid.look = state.skipInvalid := rfl
  have hpeek := hskip.toMirrors.look
  rw [hlook] at hpeek
  unfold Reader.expect State.expect
  dsimp only
  rw [hskip.toMirrors.next]
  split
  · rename_i hnext
    exact hpeek.toMirrors.advance (by rwa [hnext])
  · exact ⟨rfl, hpeek.complain _ _⟩

theorem skipAll (h : Mirrors start depth reader state) :
    Matches start depth reader.skipAll { state with rest := [], ahead := true } := by
  induction hrest : state.rest generalizing reader state with
  | nil =>
    have hnext : reader.peek.1.kind = .eof := by
      rw [h.next]
      exact Decidable.of_not_not fun hne => h.next_ne_eof.mp hne hrest
    rw [Reader.skipAll, dif_pos hnext, ← hrest]
    exact h.look
  | cons token rest ih =>
    have hnext : state.next.kind ≠ .eof := h.next_ne_eof.mpr (by simp [hrest])
    have hafter : state.advance.rest = rest := by rw [State.rest_advance, hrest, List.tail_cons]
    rw [Reader.skipAll, dif_neg (by rwa [h.next])]
    have hskip := ih (h.peeked.advance hnext).2.toMirrors hafter
    exact hskip

theorem number (h : Mirrors start depth reader state) (hnumber : state.next.kind = .number) :
    (Reader.number reader).1 = (Rule.number state).1 ∧
      Mirrors start depth (Reader.number reader).2 (Rule.number state).2 := by
  obtain ⟨hwhole, hafterWhole⟩ := h.advance (by rw [hnumber]; decide)
  have hnext := hafterWhole.toMirrors.next
  have hpeeked := hafterWhole.toMirrors.peeked
  unfold Reader.number Rule.number
  dsimp only
  rw [hwhole, hnext]
  split
  · rename_i isPoint
    obtain ⟨hpoint, hafterPoint⟩ := hpeeked.advance (by rw [isPoint]; decide)
    have hfraction := hafterPoint.toMirrors.next
    rw [hpoint, hfraction]
    unfold Rule.real
    dsimp only
    split
    · rename_i isFraction
      obtain ⟨_, hafter⟩ := hafterPoint.toMirrors.peeked.advance (by rw [isFraction]; decide)
      refine ⟨rfl, ?_⟩
      dsimp only
      split
      · exact hafter.toMirrors
      · exact hafter.toMirrors.complain _ _
    · exact ⟨rfl, hafterPoint.toMirrors.peeked.complain _ _⟩
  · unfold Rule.integer
    dsimp only
    split
    · exact ⟨rfl, hpeeked.complain _ _⟩
    · exact ⟨rfl, hpeeked⟩

theorem missingOperand (h : Mirrors start depth reader state) :
    (Reader.missingOperand reader).1 = (Rule.missingOperand state).1 ∧
      Mirrors start depth (Reader.missingOperand reader).2 (Rule.missingOperand state).2 := by
  have hreported := h.peeked.complain (Message.expectedExpression state.next) state.next
  unfold Reader.missingOperand Rule.missingOperand
  dsimp only
  rw [h.next]
  refine ⟨rfl, ?_⟩
  split
  · exact hreported
  · rename_i noClose
    have hnext : (state.complain (Message.expectedExpression state.next) state.next).next =
        state.next := by
      unfold State.complain
      split <;> rfl
    refine (hreported.advance ?_).2.toMirrors
    rw [hnext]
    rintro hend
    exact noClose (hend ▸ rfl)

end Mirrors

-- That a step reads what a rule reads, from wherever both begin together. A rule may leave open
-- whether the next token was looked at.
def Follows (start : Reader) (depth : Nat) (step : Step) (rule : Rule) : Prop :=
  ∀ reader state, Mirrors start depth reader state →
    (step reader).1 = (rule state).1 ∧ Mirrors start depth (step reader).2 (rule state).2

-- The same of a rule that does not leave it open.
def Equals (start : Reader) (depth : Nat) (step : Step) (rule : Rule) : Prop :=
  ∀ reader state, Mirrors start depth reader state →
    (step reader).1 = (rule state).1 ∧ Matches start depth (step reader).2 (rule state).2

theorem Equals.follows {start : Reader} {depth : Nat} {step : Step} {rule : Rule}
    (h : Equals start depth step rule) : Follows start depth step rule := by
  intro reader state hmirrors
  obtain ⟨htree, hafter⟩ := h reader state hmirrors
  exact ⟨htree, hafter.toMirrors⟩

section Rules

variable {start : Reader} {depth : Nat} {nested operand : Step} {nestedRule operandRule : Rule}

theorem Mirrors.parenthesized {reader : Reader} {state : State}
    (h : Follows start depth nested nestedRule) (hmirrors : Mirrors start depth reader state)
    (isLeft : state.next.kind = .leftParen) :
    (Reader.parenthesized nested reader).1 = (Rule.parenthesized nestedRule state).1 ∧
      Mirrors start depth (Reader.parenthesized nested reader).2
        (Rule.parenthesized nestedRule state).2 := by
  obtain ⟨_, hafter⟩ := hmirrors.advance (by rw [isLeft]; decide)
  obtain ⟨htree, hinner⟩ := h _ _ hafter.toMirrors
  exact ⟨htree, (hinner.expect .rightParen _ (by decide)).2.toMirrors⟩

theorem primary_follows (h : Follows start depth nested nestedRule) :
    Follows start depth (primary nested) (Rule.primary nestedRule) := by
  intro reader state hmirrors
  have hpeeked := hmirrors.peeked
  unfold primary Rule.primary
  dsimp only
  rw [hmirrors.next]
  cases hkind : state.next.kind with
  | number => exact hpeeked.number hkind
  | identifier => exact ⟨rfl, (hpeeked.advance (by rw [hkind]; decide)).2.toMirrors⟩
  | leftParen => exact Mirrors.parenthesized h hpeeked hkind
  | invalid => exact ⟨rfl, (hpeeked.advance (by rw [hkind]; decide)).2.toMirrors.report _⟩
  | _ => exact hpeeked.missingOperand

theorem operators_equal (levels : Nat) (level : Level) (hreads : Rule.Follows levels level.operand)
    (h : Follows start depth operand (Rule.of levels level.operand)) (fuel : Nat)
    (left : Expression) {reader : Reader} {state : State}
    (hmirrors : Mirrors start depth reader state) (hfuel : state.rest.length < fuel) :
    (operators level.holds operand fuel left reader).1 =
        (Rule.operators level.holds (Rule.of levels level.operand) fuel left state).1 ∧
      Matches start depth (operators level.holds operand fuel left reader).2
        (Rule.operators level.holds (Rule.of levels level.operand) fuel left state).2 := by
  induction fuel generalizing left reader state with
  | zero => omega
  | succ fuel ih =>
    unfold operators Rule.operators
    dsimp only
    rw [hmirrors.next]
    split
    · rename_i isOperator
      have hnext := level.ne_eof_of_holds isOperator
      obtain ⟨htoken, hoperator⟩ := hmirrors.peeked.advance hnext
      obtain ⟨hright, hafter⟩ := h _ _ hoperator.toMirrors
      have hlength := (hreads _ hoperator.ended).leadsTo.length_lt hmirrors.ended hnext
      rw [htoken, hright]
      exact ih _ hafter (by omega)
    · exact ⟨rfl, hmirrors.look⟩

theorem chain_equals (levels : Nat) (level : Level) (hreads : Rule.Follows levels level.operand)
    (h : Follows start depth operand (Rule.of levels level.operand)) :
    Equals start depth (chain level.holds operand) (Rule.of levels (.chain level)) := by
  intro reader state hmirrors
  obtain ⟨hfirst, hafter⟩ := h _ _ hmirrors
  have hleft : (operand reader).2.lexer.drain.tokens =
      (Rule.of levels level.operand state).2.rest := by
    rw [← Lexer.drain_peek, hafter.peek, Lexer.drain_peek, hafter.drain]
  rw [Rule.of_chain]
  unfold chain Rule.chain
  dsimp only
  rw [hleft, hfirst]
  exact operators_equal levels level hreads h _ _ hafter (Nat.lt_succ_self _)

theorem comparison_equals (levels : Nat)
    (h : Follows start depth nested (Rule.expression levels)) :
    Equals start depth (comparison nested) (Rule.comparison (Rule.expression levels)) := by
  have hprimary := Rule.primary_follows (Rule.expression_reads levels)
  have hproduct : Rule.Follows levels (.chain .product) := Rule.chain_follows hprimary
  have hsum : Rule.Follows levels (.chain .sum) := Rule.chain_follows hproduct
  have hfactors := chain_equals levels .product hprimary (primary_follows h)
  have hterms := chain_equals levels .sum hproduct hfactors.follows
  have hcomparison := chain_equals levels .comparison hsum hterms.follows
  rwa [Rule.holds_eq, Rule.holds_eq, Rule.holds_eq] at hcomparison

theorem binding_equals (h : Equals start depth nested nestedRule) {reader : Reader} {state : State}
    (hmirrors : Mirrors start depth reader state) (isLet : state.next.kind = .letWord) :
    (binding nested reader).1 = (Rule.binding nestedRule state).1 ∧
      Matches start depth (binding nested reader).2 (Rule.binding nestedRule state).2 := by
  obtain ⟨hlet, hafterLet⟩ := hmirrors.advance (by rw [isLet]; decide)
  obtain ⟨hname, hafterName⟩ :=
    hafterLet.toMirrors.expect .identifier "identifier after 'let'" (by decide)
  obtain ⟨hequals, hafterEquals⟩ :=
    hafterName.toMirrors.expect .equals "'=' after let name" (by decide)
  obtain ⟨hbody, hafter⟩ := h _ _ hafterEquals.toMirrors
  unfold binding Rule.binding
  dsimp only
  rw [hlet, hname, hequals, hbody]
  exact ⟨rfl, hafter⟩

theorem conditional_equals (h : Equals start depth nested nestedRule) {reader : Reader}
    {state : State} (hmirrors : Mirrors start depth reader state)
    (isIf : state.next.kind = .ifWord) :
    (conditional nested reader).1 = (Rule.conditional nestedRule state).1 ∧
      Matches start depth (conditional nested reader).2 (Rule.conditional nestedRule state).2 := by
  obtain ⟨hif, hafterIf⟩ := hmirrors.advance (by rw [isIf]; decide)
  obtain ⟨hcondition, hafterCondition⟩ := h _ _ hafterIf.toMirrors
  obtain ⟨hthen, hafterThen⟩ :=
    hafterCondition.toMirrors.expect .thenWord "'then'" (by decide)
  obtain ⟨hbody, hafterBody⟩ := h _ _ hafterThen.toMirrors
  unfold conditional Rule.conditional
  dsimp only
  rw [hif, hcondition, hthen, hbody, hafterBody.toMirrors.next]
  split
  · rename_i isElse
    obtain ⟨helse, hafterElse⟩ := hafterBody.toMirrors.peeked.advance (by rw [isElse]; decide)
    obtain ⟨hotherwise, hafterOtherwise⟩ := h _ _ hafterElse.toMirrors
    obtain ⟨hend, hafterEnd⟩ :=
      hafterOtherwise.toMirrors.expect .endWord "'end'" (by decide)
    rw [helse, hotherwise, hend]
    exact ⟨rfl, hafterEnd⟩
  · obtain ⟨hend, hafterEnd⟩ :=
      hafterBody.toMirrors.peeked.expect .endWord "'end'" (by decide)
    rw [hend]
    exact ⟨rfl, hafterEnd⟩

theorem tooDeep_equals : Equals start depth tooDeep Rule.tooDeep := by
  intro reader state hmirrors
  have hreported := hmirrors.peeked.complain Message.tooDeep state.next
  have hgiven : Mirrors start depth
      { reader.peek.2.complain Message.tooDeep state.next with abandoned := true }
      { state.complain Message.tooDeep state.next with abandoned := true } :=
    { hreported with abandoned := rfl }
  unfold tooDeep Rule.tooDeep
  dsimp only
  rw [hmirrors.next]
  exact ⟨rfl, hgiven.skipAll⟩

theorem Mirrors.enter {reader : Reader} {state : State} (h : Mirrors start depth reader state) :
    Mirrors start (depth + 1) reader.enter state :=
  { h with depth := congrArg (· + 1) h.depth }

theorem Matches.leave {reader : Reader} {state : State}
    (h : Matches start (depth + 1) reader state) : Matches start depth reader.leave state := by
  refine ⟨{ h.toMirrors with depth := ?_ }, h.lexer⟩
  rw [Reader.leave, h.depth, Nat.add_sub_cancel]

-- An expression is read as the rule of expressions reads it when as many levels are left to it as
-- the reader is not yet deep.
theorem expression_equals (levels : Nat) {fuel : Nat} (hfuel : levels < fuel)
    (hdepth : depth + levels = maxNesting) :
    Equals start depth (expression fuel) (Rule.expression levels) := by
  induction levels generalizing fuel depth with
  | zero =>
    obtain ⟨fuel, rfl⟩ := Nat.exists_eq_add_one.mpr hfuel
    intro reader state hmirrors
    have hdeep : maxNesting ≤ reader.depth := by rw [hmirrors.depth]; omega
    rw [expression]
    dsimp only
    rw [if_pos hdeep]
    exact tooDeep_equals _ _ hmirrors
  | succ levels ih =>
    obtain ⟨fuel, rfl⟩ := Nat.exists_eq_add_one.mpr (Nat.zero_lt_of_lt hfuel)
    have hnested : Equals start (depth + 1) (expression fuel) (Rule.expression levels) :=
      ih (by omega) (by omega)
    intro reader state hmirrors
    have hdeep : ¬maxNesting ≤ reader.depth := by rw [hmirrors.depth]; omega
    have hentered := hmirrors.enter
    rw [expression, Rule.expression]
    dsimp only
    rw [if_neg hdeep, hentered.next]
    cases hkind : state.next.kind with
    | letWord =>
      obtain ⟨htree, hafter⟩ := binding_equals hnested hentered.peeked hkind
      exact ⟨htree, hafter.leave⟩
    | ifWord =>
      obtain ⟨htree, hafter⟩ := conditional_equals hnested hentered.peeked hkind
      exact ⟨htree, hafter.leave⟩
    | _ =>
      obtain ⟨htree, hafter⟩ := comparison_equals levels hnested.follows _ _ hentered.peeked
      exact ⟨htree, hafter.leave⟩

end Rules

theorem Mirrors.passRest {start reader : Reader} {depth : Nat} {state : State} (reported : Bool)
    (h : Mirrors start depth reader state) :
    Matches start depth (reader.passRest reported)
      { state with
        rest := []
        ahead := true
        reports :=
          (leftOver (reported || state.abandoned) state.rest).reverse ++ state.reports } := by
  induction hrest : state.rest generalizing reader state reported with
  | nil =>
    have hnext : reader.peek.1.kind = .eof := by
      rw [h.next]
      exact Decidable.of_not_not fun hne => h.next_ne_eof.mp hne hrest
    rw [Reader.passRest, dif_pos hnext]
    simpa [leftOver, State.look, hrest] using h.look
  | cons token rest ih =>
    have hne : state.next.kind ≠ .eof := h.next_ne_eof.mpr (by simp [hrest])
    have hnext := State.next_of_rest hrest
    obtain ⟨htoken, hadvance⟩ := h.peeked.advance hne
    have hafter : state.advance.rest = rest := by rw [State.rest_advance, hrest, List.tail_cons]
    rw [Reader.passRest, dif_neg (by rwa [h.next])]
    dsimp only
    rw [htoken, hnext]
    split
    · rename_i hinvalid
      have hpassed := ih reported (hadvance.toMirrors.report (invalidCharacter token)) hafter
      simpa [leftOver, hinvalid, State.report, State.advance] using hpassed
    · rename_i hvalid
      cases reported with
      | true =>
        have hpassed := ih true hadvance.toMirrors hafter
        simpa [leftOver, hvalid, State.advance] using hpassed
      | false =>
        have hcomplained := hadvance.toMirrors.complain (Message.leftOver token) token
        cases habandoned : state.abandoned with
        | true =>
          have hquiet : state.advance.complain (Message.leftOver token) token = state.advance := by
            simp [State.complain, State.advance, habandoned]
          rw [hquiet] at hcomplained
          have hpassed := ih true hcomplained hafter
          simpa [leftOver, hvalid, State.advance, habandoned] using hpassed
        | false =>
          have hreported : state.advance.complain (Message.leftOver token) token =
              state.advance.report (misplaced (Message.leftOver token) token) := by
            simp [State.complain, State.advance, habandoned]
          rw [hreported] at hcomplained
          have hpassed := ih true hcomplained hafter
          simpa [leftOver, hvalid, State.advance, State.report, habandoned] using hpassed

-- What the caller of a reader sees of it.
def parser (reader : Reader) : Parser := ⟨reader.lexer, reader.diagnostics, reader.abandoned⟩

theorem matches_state (reader : Reader) :
    Matches reader reader.depth reader reader.parser.state where
  rest := List.suffix_refl _
  eof := rfl
  peek := by simp [Lexer.downTo, Parser.state, parser, Lexer.skip]
  diagnostics := by simp [Parser.state, parser]
  consumed := rfl
  depth := rfl
  abandoned := rfl
  lexer := by simp [Lexer.downTo, Parser.state, parser, Lexer.skip]

theorem Matches.parser_eq {start reader : Reader} {depth : Nat} {state : State}
    (h : Matches start depth reader state) :
    reader.parser = start.parser.settle start.parser.state state := by
  unfold Parser.settle
  rw [parser, h.lexer, h.diagnostics, h.abandoned]
  rfl

theorem takeExpression_matches {reader : Reader} (h : reader.depth = 0) :
    reader.takeExpression.1 = reader.parser.state.takeExpression.1 ∧
      Matches reader 0 reader.takeExpression.2 reader.parser.state.takeExpression.2 := by
  have hstart : Mirrors reader 0 { reader with abandoned := false }
      { reader.parser.state with abandoned := false } :=
    { (matches_state reader).toMirrors with depth := h, abandoned := rfl }
  obtain ⟨htree, hafter⟩ : _ ∧ _ :=
    expression_equals maxNesting (Nat.lt_succ_self _) (Nat.zero_add _) _ _ hstart
  unfold takeExpression State.takeExpression
  dsimp only
  generalize Rule.expression maxNesting { reader.parser.state with abandoned := false } = ruled
    at htree hafter ⊢
  generalize expression (maxNesting + 1) { reader with abandoned := false } = taken
    at htree hafter ⊢
  have hprogress : taken.2.consumed = reader.consumed ↔
      ruled.2.rest.length = reader.parser.state.rest.length := by
    have hcount := hafter.consumed
    have hall : reader.parser.state.rest = reader.lexer.drain.tokens := rfl
    rw [hall]
    omega
  by_cases hnothing : ruled.2.rest.length = reader.parser.state.rest.length
  · rw [if_pos hnothing, if_pos (hprogress.mpr hnothing), htree, hafter.toMirrors.next]
    refine ⟨rfl, ?_⟩
    dsimp only
    by_cases hend : ruled.2.rest = []
    · have hnext := Decidable.of_not_not fun hne => hafter.toMirrors.next_ne_eof.mp hne hend
      rw [if_pos hnext, if_pos (by simp [hend])]
      exact hafter.toMirrors.look
    · have hnext := hafter.toMirrors.next_ne_eof.mpr hend
      rw [if_neg hnext, if_neg (by simp [hend])]
      exact (hafter.toMirrors.peeked.advance hnext).2
  · rw [if_neg hnothing, if_neg fun hsame => hnothing (hprogress.mp hsame)]
    exact ⟨htree, hafter⟩

-- A reader in no expression reads as a parser does, and is in no expression afterwards.
theorem parser_takeExpression {reader : Reader} (h : reader.depth = 0) :
    reader.takeExpression.1 = reader.parser.takeExpression.1 ∧
      reader.takeExpression.2.parser = reader.parser.takeExpression.2 ∧
      reader.takeExpression.2.depth = 0 := by
  obtain ⟨htree, hafter⟩ := takeExpression_matches h
  exact ⟨htree, hafter.parser_eq, hafter.depth⟩

theorem parser_expectEnd (reader : Reader) :
    reader.expectEnd.parser = reader.parser.expectEnd ∧ reader.expectEnd.depth = reader.depth := by
  have hpassed := (matches_state reader).toMirrors.passRest false
  refine ⟨?_, hpassed.depth⟩
  rw [expectEnd, hpassed.parser_eq]
  rfl

end Reader

end Calculator
