import Calculator.Parser.Rules
import Calculator.Proofs.Parsing.Grammar

namespace Calculator.Parser

open Grammar

namespace State

@[simp] theorem rest_advance (state : State) : state.advance.rest = state.rest.tail := rfl

@[simp] theorem reports_advance (state : State) : state.advance.reports = state.reports := rfl

@[simp] theorem reports_report (diagnostic : Diagnostic) (state : State) :
    (state.report diagnostic).reports = diagnostic :: state.reports := rfl

theorem reports_complain (message : String) (token : Token) {state : State}
    (h : state.abandoned = false) :
    (state.complain message token).reports = misplaced message token :: state.reports := by
  simp [complain, h]

theorem rest_eq_cons {state : State} (heof : state.eof.kind = .eof) (h : state.next.kind ≠ .eof) :
    state.rest = state.next :: state.advance.rest := by
  unfold next at h ⊢
  cases hrest : state.rest with
  | nil => simp [hrest, heof] at h
  | cons token rest => simp [hrest]

theorem next_of_rest {state : State} {token : Token} {rest : List Token}
    (h : state.rest = token :: rest) : state.next = token := by
  simp [next, h]

theorem skipInvalid_of_rest {state : State}
    (h : state.rest.takeWhile (fun token => token.kind = .invalid) = []) :
    state.skipInvalid = state.look := by
  have hdrop := List.takeWhile_append_dropWhile
    (p := fun token : Token => decide (token.kind = .invalid)) (l := state.rest)
  rw [h, List.nil_append] at hdrop
  simp [skipInvalid, look, h, hdrop]

theorem expect_of_next {state : State} {kind : Kind} (what : String) (hvalid : kind ≠ .invalid)
    (h : state.next.kind = kind) : state.expect kind what = (state.next, state.advance) := by
  have hskip : state.skipInvalid = state.look := by
    apply skipInvalid_of_rest
    cases hrest : state.rest with
    | nil => rfl
    | cons token rest =>
      rw [next_of_rest hrest] at h
      simp [h, hvalid]
  have hnext : state.look.next = state.next := rfl
  simp only [expect, hskip, hnext, h, if_true]
  rfl

theorem next_of_expect {state : State} {kind : Kind} {what : String}
    (habandoned : state.abandoned = false)
    (hquiet : (state.expect kind what).2.reports.length ≤ state.reports.length) :
    state.next.kind = kind := by
  unfold expect at hquiet
  dsimp only at hquiet
  split at hquiet
  · rename_i hkind
    have hskip : state.skipInvalid = state.look := by
      apply skipInvalid_of_rest
      simp only [reports_advance, skipInvalid, List.length_append, List.length_reverse,
        List.length_map] at hquiet
      exact List.length_eq_zero_iff.mp (by omega)
    rwa [hskip] at hkind
  · rw [reports_complain _ _ (by exact habandoned)] at hquiet
    simp only [skipInvalid, List.length_cons, List.length_append] at hquiet
    omega

-- What reading never does: change the end, take a token that is not next, take back a report.
structure LeadsTo (state after : State) : Prop where
  eof : after.eof = state.eof
  rest : after.rest <:+ state.rest
  reports : state.reports <:+ after.reports

namespace LeadsTo

theorem refl (state : State) : state.LeadsTo state := ⟨rfl, List.suffix_refl _, List.suffix_refl _⟩

theorem trans {first second third : State} (h : first.LeadsTo second) (h' : second.LeadsTo third) :
    first.LeadsTo third :=
  ⟨h'.eof.trans h.eof, h'.rest.trans h.rest, h.reports.trans h'.reports⟩

theorem look (state : State) : state.LeadsTo state.look :=
  ⟨rfl, List.suffix_refl _, List.suffix_refl _⟩

theorem advance (state : State) : state.LeadsTo state.advance :=
  ⟨rfl, List.tail_suffix _, List.suffix_refl _⟩

theorem report (diagnostic : Diagnostic) (state : State) :
    state.LeadsTo (state.report diagnostic) :=
  ⟨rfl, List.suffix_refl _, List.suffix_cons _ _⟩

theorem complain (message : String) (token : Token) (state : State) :
    state.LeadsTo (state.complain message token) := by
  unfold State.complain
  split
  · exact refl state
  · exact report _ state

theorem abandon (state : State) : state.LeadsTo state.abandon :=
  ⟨rfl, List.nil_suffix, List.suffix_refl _⟩

theorem skipInvalid (state : State) : state.LeadsTo state.skipInvalid :=
  ⟨rfl, List.dropWhile_suffix _, List.suffix_append _ _⟩

theorem expect {state : State} {kind : Kind} {what : String} {taken : Token × State}
    (h : state.expect kind what = taken) : state.LeadsTo taken.2 := by
  subst h
  unfold State.expect
  dsimp only
  split
  · exact (skipInvalid state).trans (advance _)
  · exact (skipInvalid state).trans (complain _ _ _)

theorem ended {state after : State} (h : state.LeadsTo after) (heof : state.eof.kind = .eof) :
    after.eof.kind = .eof := by
  rw [h.eof]
  exact heof

theorem length_le {state after : State} (h : state.LeadsTo after) :
    state.reports.length ≤ after.reports.length :=
  h.reports.length_le

end LeadsTo

theorem ended_expect {state : State} (kind : Kind) (what : String) (heof : state.eof.kind = .eof) :
    (state.expect kind what).2.eof.kind = .eof :=
  (LeadsTo.expect rfl).ended heof

end State

-- One way through the rule of a symbol, from a state to a state. `levels` is how deep expressions
-- may still nest.
inductive Reads : (levels : Nat) → (symbol : Symbol) → State → Meaning symbol → State → Prop where
  | tooDeep {state : State} :
      Reads 0 (.one .expression) state (Expression.erroneous state.next Message.tooDeep)
        (state.complain Message.tooDeep state.next).abandon
  | binding {levels : Nat} {state after : State} {name equals : Token × State}
      {body : Expression} (isLet : state.next.kind = .letWord)
      (hname : state.advance.expect .identifier "identifier after 'let'" = name)
      (hequals : name.2.expect .equals "'=' after let name" = equals)
      (hbody : Reads levels (.one .expression) equals.2 body after) :
      Reads (levels + 1) (.one .expression) state
        (Expression.binding state.next name.1 (name.1.text.getD "") equals.1 body) after
  | ifThen {levels : Nat} {state afterCondition afterBody : State}
      {thenToken endToken : Token × State} {condition body : Expression}
      (isIf : state.next.kind = .ifWord)
      (hcondition : Reads levels (.one .expression) state.advance condition afterCondition)
      (hthen : afterCondition.expect .thenWord "'then'" = thenToken)
      (hbody : Reads levels (.one .expression) thenToken.2 body afterBody)
      (noElse : afterBody.next.kind ≠ .elseWord)
      (hend : afterBody.expect .endWord "'end'" = endToken) :
      Reads (levels + 1) (.one .expression) state
        (Expression.ifThen state.next condition thenToken.1 body endToken.1 .empty) endToken.2
  | ifThenElse {levels : Nat} {state afterCondition afterBody afterOtherwise : State}
      {thenToken endToken : Token × State} {condition body otherwise : Expression}
      (isIf : state.next.kind = .ifWord)
      (hcondition : Reads levels (.one .expression) state.advance condition afterCondition)
      (hthen : afterCondition.expect .thenWord "'then'" = thenToken)
      (hbody : Reads levels (.one .expression) thenToken.2 body afterBody)
      (isElse : afterBody.next.kind = .elseWord)
      (hotherwise : Reads levels (.one .expression) afterBody.advance otherwise afterOtherwise)
      (hend : afterOtherwise.expect .endWord "'end'" = endToken) :
      Reads (levels + 1) (.one .expression) state
        (Expression.ifThenElse state.next condition thenToken.1 body afterBody.next otherwise
          endToken.1) endToken.2
  | comparison {levels : Nat} {state after : State} {operands : Expression}
      (noLet : state.next.kind ≠ .letWord) (noIf : state.next.kind ≠ .ifWord)
      (hoperands : Reads levels (.one (.chain .comparison)) state operands after) :
      Reads (levels + 1) (.one .expression) state operands after
  | chain {levels : Nat} {level : Level} {state afterFirst after : State} {first : Expression}
      {steps : List (Token × Expression)}
      (hfirst : Reads levels (.one level.operand) state first afterFirst)
      (hrest : Reads levels (.many level) afterFirst steps after) :
      Reads levels (.one (.chain level)) state
        (steps.foldl (fun left step => Expression.binary left step.1 step.2) first) after
  | nothing {levels : Nat} {level : Level} {state : State}
      (noOperator : level.holds state.next.kind = false) :
      Reads levels (.many level) state [] state.look
  | more {levels : Nat} {level : Level} {state afterOperand after : State} {operand : Expression}
      {steps : List (Token × Expression)} (isOperator : level.holds state.next.kind = true)
      (hoperand : Reads levels (.one level.operand) state.advance operand afterOperand)
      (hrest : Reads levels (.many level) afterOperand steps after) :
      Reads levels (.many level) state ((state.next, operand) :: steps) after
  | literal {levels : Nat} {state after : State} {number : Expression}
      (hnumber : Reads levels (.one .number) state number after) :
      Reads levels (.one .primary) state number after
  | reference {levels : Nat} {state : State} (isName : state.next.kind = .identifier) :
      Reads levels (.one .primary) state
        (Expression.reference state.next (state.next.text.getD "")) state.advance
  | group {levels : Nat} {state afterInner : State} {right : Token × State} {inner : Expression}
      (isLeft : state.next.kind = .leftParen)
      (hinner : Reads levels (.one .expression) state.advance inner afterInner)
      (hright : afterInner.expect .rightParen "')' after expression" = right) :
      Reads levels (.one .primary) state inner right.2
  | invalid {levels : Nat} {state : State} (isInvalid : state.next.kind = .invalid) :
      Reads levels (.one .primary) state
        (Expression.erroneous state.next (Message.invalidCharacter state.next))
        (state.advance.report (invalidCharacter state.next))
  | missing {levels : Nat} {state : State} (closes : state.next.kind.closes = true) :
      Reads levels (.one .primary) state
        (Expression.erroneous state.next (Message.expectedExpression state.next))
        (state.complain (Message.expectedExpression state.next) state.next)
  | misplaced {levels : Nat} {state : State} (noClose : state.next.kind.closes = false)
      (noPrimary : Nonterminal.primary.begins state.next.kind = false)
      (noInvalid : state.next.kind ≠ .invalid) :
      Reads levels (.one .primary) state
        (Expression.erroneous state.next (Message.expectedExpression state.next))
        (state.complain (Message.expectedExpression state.next) state.next).advance
  | integer {levels : Nat} {state : State} (isWhole : state.next.kind = .number)
      (noPoint : state.advance.next.kind ≠ .period)
      (short : state.next.lexeme.toList.length ≤ Decimal.maxDigits) :
      Reads levels (.one .number) state
        (Expression.integer state.next (Decimal.digitsValue state.next.lexeme.toList)) state.advance
  | tooLong {levels : Nat} {state : State} (isWhole : state.next.kind = .number)
      (noPoint : state.advance.next.kind ≠ .period)
      (long : Decimal.maxDigits < state.next.lexeme.toList.length) :
      Reads levels (.one .number) state
        (Expression.erroneous state.next (Message.tooLong state.next))
        (state.advance.complain (Message.tooLong state.next) state.next)
  | real {levels : Nat} {state : State} (isWhole : state.next.kind = .number)
      (isPoint : state.advance.next.kind = .period)
      (isFraction : state.advance.advance.next.kind = .number)
      (touching : Rule.touching state.next state.advance.next state.advance.advance.next = true) :
      Reads levels (.one .number) state
        (Expression.real state.next state.advance.next state.advance.advance.next
          (Decimal.ofParts state.next.lexeme.toList state.advance.advance.next.lexeme.toList))
        state.advance.advance.advance
  | spacedReal {levels : Nat} {state : State} (isWhole : state.next.kind = .number)
      (isPoint : state.advance.next.kind = .period)
      (isFraction : state.advance.advance.next.kind = .number)
      (spaced : Rule.touching state.next state.advance.next state.advance.advance.next = false) :
      Reads levels (.one .number) state
        (Expression.real state.next state.advance.next state.advance.advance.next
          (Decimal.ofParts state.next.lexeme.toList state.advance.advance.next.lexeme.toList))
        (state.advance.advance.advance.complain Message.spacedReal state.next)
  | noFraction {levels : Nat} {state : State} (isWhole : state.next.kind = .number)
      (isPoint : state.advance.next.kind = .period)
      (noFraction : state.advance.advance.next.kind ≠ .number) :
      Reads levels (.one .number) state
        (Expression.erroneous state.advance.next
          (Message.expectedFraction state.advance.advance.next))
        (state.advance.advance.complain (Message.expectedFraction state.advance.advance.next)
          state.advance.advance.next)

namespace Reads

variable {levels : Nat} {symbol : Symbol} {state after : State} {meaning : Meaning symbol}

theorem leadsTo (h : Reads levels symbol state meaning after) : state.LeadsTo after := by
  induction h with
  | tooDeep => exact (State.LeadsTo.complain _ _ _).trans (.abandon _)
  | binding isLet hname hequals hbody ih =>
    exact (((State.LeadsTo.advance _).trans (.expect hname)).trans (.expect hequals)).trans ih
  | ifThen isIf hcondition hthen hbody noElse hend ihCondition ihBody =>
    have hbefore := ((State.LeadsTo.advance _).trans ihCondition).trans (.expect hthen)
    exact (hbefore.trans ihBody).trans (.expect hend)
  | ifThenElse isIf hcondition hthen hbody isElse hotherwise hend ihCondition ihBody ihOtherwise =>
    have hbefore := ((State.LeadsTo.advance _).trans ihCondition).trans (.expect hthen)
    have hbranches := ((hbefore.trans ihBody).trans (.advance _)).trans ihOtherwise
    exact hbranches.trans (.expect hend)
  | comparison noLet noIf hoperands ih => exact ih
  | chain hfirst hrest ihFirst ihRest => exact ihFirst.trans ihRest
  | nothing noOperator => exact .look _
  | more isOperator hoperand hrest ihOperand ihRest =>
    exact ((State.LeadsTo.advance _).trans ihOperand).trans ihRest
  | literal hnumber ih => exact ih
  | group isLeft hinner hright ih =>
    exact ((State.LeadsTo.advance _).trans ih).trans (.expect hright)
  | reference | integer => exact .advance _
  | invalid isInvalid => exact (State.LeadsTo.advance _).trans (.report _ _)
  | missing closes => exact .complain _ _ _
  | misplaced noClose noPrimary noInvalid => exact (State.LeadsTo.complain _ _ _).trans (.advance _)
  | tooLong isWhole noPoint long => exact (State.LeadsTo.advance _).trans (.complain _ _ _)
  | real isWhole isPoint isFraction touching =>
    exact ((State.LeadsTo.advance _).trans (.advance _)).trans (.advance _)
  | @spacedReal _ state isWhole isPoint isFraction spaced =>
    have htokens := ((State.LeadsTo.advance state).trans (.advance _)).trans (.advance _)
    exact htokens.trans (.complain _ _ _)
  | noFraction isWhole isPoint noFraction =>
    exact ((State.LeadsTo.advance _).trans (.advance _)).trans (.complain _ _ _)

end Reads

namespace Rule

-- The rule of a nonterminal, in which expressions may nest `levels` deep.
def of (levels : Nat) : Nonterminal → Rule
  | .expression => expression levels
  | .chain .comparison => comparison (expression levels)
  | .chain .sum => sum (expression levels)
  | .chain .product => product (expression levels)
  | .primary => primary (expression levels)
  | .number => number

theorem holds_eq (level : Level) :
    level.holds = match level with
      | .comparison => Kind.isComparison
      | .sum => Kind.isAdditive
      | .product => Kind.isMultiplicative := by
  funext kind
  cases level <;> cases kind <;> rfl

theorem of_chain (levels : Nat) (level : Level) :
    of levels (.chain level) = chain level.holds (of levels level.operand) := by
  rw [holds_eq]
  cases level <;> rfl

theorem number_reads (levels : Nat) {state : State} (h : state.next.kind = .number) :
    Reads levels (.one .number) state (number state).1 (number state).2 := by
  unfold number
  dsimp only
  split
  · rename_i isPoint
    unfold real
    dsimp only
    split
    · rename_i isFraction
      split
      · exact .real h isPoint isFraction ‹_›
      · exact .spacedReal h isPoint isFraction (Bool.eq_false_iff.mpr ‹_›)
    · exact .noFraction h isPoint ‹_›
  · rename_i noPoint
    unfold integer
    dsimp only
    split
    · exact .tooLong h noPoint ‹_›
    · exact .integer h noPoint (by omega)

-- That the rule of a nonterminal only goes the ways there are.
def Follows (levels : Nat) (nonterminal : Nonterminal) : Prop :=
  ∀ state : State, state.eof.kind = .eof →
    Reads levels (.one nonterminal) state (of levels nonterminal state).1
      (of levels nonterminal state).2

theorem primary_follows {levels : Nat} (hnested : Follows levels .expression) :
    Follows levels .primary := by
  intro state heof
  unfold of primary
  dsimp only
  split
  · exact .literal (number_reads levels ‹_›)
  · exact .reference ‹_›
  · exact .group ‹_› (hnested _ heof) rfl
  · exact .invalid ‹_›
  · unfold missingOperand
    dsimp only
    split
    · exact .missing ‹_›
    · refine .misplaced (Bool.eq_false_iff.mpr ‹_›) ?_ ‹_›
      simp_all [Nonterminal.begins]

theorem operators_follow {levels : Nat} {level : Level} (hoperand : Follows levels level.operand)
    (fuel : Nat) (left : Expression) (state : State) (heof : state.eof.kind = .eof)
    (hfuel : state.rest.length < fuel) :
    ∃ steps, Reads levels (.many level) state steps
        (operators level.holds (of levels level.operand) fuel left state).2 ∧
      (operators level.holds (of levels level.operand) fuel left state).1 =
        steps.foldl (fun left step => Expression.binary left step.1 step.2) left := by
  induction fuel generalizing left state with
  | zero => omega
  | succ fuel ih =>
    unfold operators
    split
    · rename_i isOperator
      have hright := hoperand state.advance heof
      have hlead := hright.leadsTo
      have hcons := State.rest_eq_cons heof (level.ne_eof_of_holds isOperator)
      have hlength := hlead.rest.length_le
      have hnext := congrArg List.length hcons
      simp only [State.rest_advance, List.length_cons] at hlength hnext
      obtain ⟨steps, hsteps, htree⟩ :=
        ih (.binary left state.next (of levels level.operand state.advance).1) _
          (hlead.ended heof) (by omega)
      exact ⟨_, .more isOperator hright hsteps, htree⟩
    · exact ⟨[], .nothing (Bool.eq_false_iff.mpr ‹_›), rfl⟩

theorem chain_follows {levels : Nat} {level : Level} (hoperand : Follows levels level.operand) :
    Follows levels (.chain level) := by
  intro state heof
  have hfirst := hoperand state heof
  obtain ⟨steps, hsteps, htree⟩ := operators_follow hoperand _
    (of levels level.operand state).1 (of levels level.operand state).2
    (hfirst.leadsTo.ended heof) (Nat.lt_succ_self _)
  rw [of_chain]
  unfold chain
  dsimp only
  rw [htree]
  exact .chain hfirst hsteps

-- The rule of expressions only goes the ways there are.
theorem expression_reads (levels : Nat) : Follows levels .expression := by
  induction levels with
  | zero => exact fun state heof => .tooDeep
  | succ levels ih =>
    intro state heof
    have hproduct : Follows levels (.chain .product) := chain_follows (primary_follows ih)
    have hsum : Follows levels (.chain .sum) := chain_follows hproduct
    have hcomparison : Follows levels (.chain .comparison) := chain_follows hsum
    unfold of expression
    dsimp only
    split
    · exact .binding ‹_› rfl rfl (ih _ (State.ended_expect _ _ (State.ended_expect _ _ heof)))
    · rename_i isIf
      have hcondition := ih state.advance heof
      have hthen := State.ended_expect .thenWord "'then'" (hcondition.leadsTo.ended heof)
      have hbody := ih _ hthen
      unfold conditional
      dsimp only
      split
      · exact .ifThenElse isIf hcondition rfl hbody ‹_› (ih _ (hbody.leadsTo.ended hthen)) rfl
      · exact .ifThen isIf hcondition rfl hbody ‹_› rfl
    · exact .comparison ‹_› ‹_› (hcomparison state heof)

end Rule

end Calculator.Parser
