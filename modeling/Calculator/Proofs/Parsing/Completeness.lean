import Calculator.Proofs.Parsing.Ambiguity
import Calculator.Proofs.Parsing.Reads

namespace Calculator.Parser

open Grammar

-- A state behind some tokens, with nothing reported about them.
structure Passes (state after : State) (behind : List Token) : Prop where
  eof : after.eof = state.eof
  rest : after.rest = behind
  reports : after.reports = state.reports
  abandoned : after.abandoned = state.abandoned

namespace Passes

variable {first second third : State} {token : Token} {behind behind' : List Token}

theorem trans (h : Passes first second behind) (h' : Passes second third behind') :
    Passes first third behind' :=
  ⟨h'.eof.trans h.eof, h'.rest, h'.reports.trans h.reports, h'.abandoned.trans h.abandoned⟩

theorem look (state : State) : Passes state state.look state.rest := ⟨rfl, rfl, rfl, rfl⟩

theorem advance {state : State} (h : state.rest = token :: behind) :
    Passes state state.advance behind :=
  ⟨rfl, by rw [State.rest_advance, h, List.tail_cons], rfl, rfl⟩

theorem ended (h : Passes first second behind) (heof : first.eof.kind = .eof) :
    second.eof.kind = .eof := by
  rw [h.eof]
  exact heof

end Passes

namespace State

theorem next_of_ends {symbol : Symbol} {state : State} (heof : state.eof.kind = .eof)
    (hends : symbol.Ends state.rest) : symbol.extendedBy state.next.kind = false := by
  unfold next
  cases hrest : state.rest with
  | nil =>
    rw [List.headD_nil, heof]
    exact Symbol.extendedBy_of_closes rfl
  | cons token rest => exact Symbol.ends_cons.mp (hrest ▸ hends)

theorem expect_of_rest {state : State} {kind : Kind} {token : Token} {behind : List Token}
    (what : String) (hrest : state.rest = token :: behind) (hkind : token.kind = kind)
    (hvalid : kind ≠ .invalid) : state.expect kind what = (token, state.advance) := by
  have hnext := next_of_rest hrest
  rw [expect_of_next what hvalid (hnext.symm ▸ hkind), hnext]

end State

-- What the rule of a symbol makes of a state.
def Makes (levels : Nat) : (symbol : Symbol) → State → Meaning symbol → State → Prop
  | .one nonterminal, state, tree, after => Rule.of levels nonterminal state = (tree, after)
  | .many level, state, steps, after => ∀ left fuel, state.rest.length < fuel →
    Rule.operators level.holds (Rule.of levels level.operand) fuel left state =
      (steps.foldl (fun left step => Expression.binary left step.1 step.2) left, after)

theorem Rule.expression_of_begins (levels : Nat) {state : State}
    (h : (Nonterminal.chain .comparison).begins state.next.kind = true) :
    expression (levels + 1) state = comparison (expression levels) state := by
  rw [expression]
  dsimp only
  split
  · rename_i isLet
    rw [isLet] at h
    cases h
  · rename_i isIf
    rw [isIf] at h
    cases h
  · rfl

end Calculator.Parser

namespace Calculator.Grammar.Derivation

open Calculator.Parser

theorem begins_next {nonterminal : Nonterminal} {d : Derivation (.one nonterminal)} {state : State}
    {behind : List Token} (hrest : state.rest = d.tokens ++ behind) :
    nonterminal.begins state.next.kind = true := by
  obtain ⟨token, rest, htokens, hbegins⟩ := d.begins
  rw [htokens] at hrest
  rwa [State.next_of_rest hrest]

theorem expression_of_operands {operands : Derivation (.one (.chain .comparison))} {levels : Nat}
    {state : State} {behind : List Token} (hrest : state.rest = operands.tokens ++ behind) :
    Rule.expression (levels + 1) state = Rule.comparison (Rule.expression levels) state :=
  Rule.expression_of_begins levels (operands.begins_next hrest)

-- In front of these tokens, reading reads the derivation.
def ReadsBefore {symbol : Symbol} (d : Derivation symbol) (behind : List Token) : Prop :=
  d.Admissible → ∀ (levels : Nat) (state : State), d.depth ≤ levels → state.eof.kind = .eof →
    state.rest = d.tokens ++ behind →
      ∃ after, Makes levels symbol state d.tree after ∧ Passes state after behind

-- In front of tokens that do not extend the derivation, reading reads it.
def IsRead {symbol : Symbol} (d : Derivation symbol) : Prop :=
  d.Admissible → ∀ (levels : Nat) (state : State) (behind : List Token), d.depth ≤ levels →
    state.eof.kind = .eof → state.rest = d.tokens ++ behind → symbol.Ends behind →
      ∃ after, Makes levels symbol state d.tree after ∧ Passes state after behind

namespace IsRead

theorem closed {symbol : Symbol} {d : Derivation symbol} (h : d.IsRead) (hadmissible : d.Admissible)
    {levels : Nat} (hdepth : d.depth ≤ levels) {state : State} (heof : state.eof.kind = .eof)
    {closing : Token} {behind : List Token} (hrest : state.rest = d.tokens ++ closing :: behind)
    (hclosing : closing.kind.closes = true) :
    ∃ after, Makes levels symbol state d.tree after ∧ Passes state after (closing :: behind) :=
  h hadmissible levels state _ hdepth heof hrest (Symbol.ends_of_closes hclosing)

theorem before {symbol : Symbol} {d : Derivation symbol} (h : d.IsRead) {behind : List Token}
    (hends : symbol.Ends behind) : d.ReadsBefore behind :=
  fun hadmissible levels state hdepth heof hrest =>
    h hadmissible levels state behind hdepth heof hrest hends

theorem branch {condition body : Derivation (.one .expression)} {thenToken : Token}
    (ihCondition : condition.IsRead) (ihBody : body.IsRead) (isThen : thenToken.kind = .thenWord)
    (hcondition : condition.Admissible) (hbody : body.Admissible) {levels : Nat}
    (hdepth : max condition.depth body.depth ≤ levels) {state : State}
    (heof : state.eof.kind = .eof) {behind : List Token}
    (hrest : state.rest = condition.tokens ++ thenToken :: (body.tokens ++ behind))
    (hends : (Symbol.one .expression).Ends behind) :
    ∃ afterCondition afterBody,
      Rule.expression levels state = (condition.tree, afterCondition) ∧
      afterCondition.expect .thenWord "'then'" = (thenToken, afterCondition.advance) ∧
      Rule.expression levels afterCondition.advance = (body.tree, afterBody) ∧
      Passes state afterBody behind := by
  obtain ⟨hdepthCondition, hdepthBody⟩ := Nat.max_le.mp hdepth
  obtain ⟨afterCondition, hmakesCondition, hpassesCondition⟩ :=
    ihCondition.closed hcondition hdepthCondition heof hrest (Symbol.closes_of_kind isThen rfl)
  have hthen := hpassesCondition.trans (.advance hpassesCondition.rest)
  obtain ⟨afterBody, hmakesBody, hpassesBody⟩ :=
    ihBody hbody levels _ behind hdepthBody (hthen.ended heof) hthen.rest hends
  exact ⟨afterCondition, afterBody, hmakesCondition,
    State.expect_of_rest _ hpassesCondition.rest isThen (by decide), hmakesBody,
    hthen.trans hpassesBody⟩

end IsRead

-- What stands behind the body of a `let` is behind the `let`, and an `if` ends with its own `end`.
namespace ReadsBefore

variable {behind : List Token}

theorem binding {letToken name equals : Token} {body : Derivation (.one .expression)}
    (isLet : letToken.kind = .letWord) (isName : name.kind = .identifier)
    (isEquals : equals.kind = .equals) (ih : body.ReadsBefore behind) :
    (binding letToken name equals body isLet isName isEquals).ReadsBefore behind := by
  intro hadmissible levels state hdepth heof hrest
  cases levels with
  | zero => cases hdepth
  | succ levels =>
    have hlet := Passes.advance hrest
    have hname := Passes.advance hlet.rest
    have hequals := Passes.advance hname.rest
    have hpasses := (hlet.trans hname).trans hequals
    obtain ⟨after, hmakes, hafter⟩ := ih hadmissible levels _ (Nat.le_of_succ_le_succ hdepth)
      (hpasses.ended heof) hpasses.rest
    refine ⟨after, ?_, hpasses.trans hafter⟩
    have hkind : state.next.kind = .letWord := State.next_of_rest hrest ▸ isLet
    simp only [Makes, Rule.of, Rule.expression, hkind, Rule.binding] at hmakes ⊢
    rw [State.expect_of_rest _ hlet.rest isName (by decide),
      State.expect_of_rest _ hname.rest isEquals (by decide), hmakes, State.next_of_rest hrest]
    rfl

theorem ifThen {ifToken thenToken endToken : Token} {condition body : Derivation (.one .expression)}
    (isIf : ifToken.kind = .ifWord) (isThen : thenToken.kind = .thenWord)
    (isEnd : endToken.kind = .endWord) (ihCondition : condition.IsRead) (ihBody : body.IsRead) :
    (ifThen ifToken condition thenToken body endToken isIf isThen isEnd).ReadsBefore behind := by
  intro hadmissible levels state hdepth heof hrest
  cases levels with
  | zero => cases hdepth
  | succ levels =>
    simp only [tokens, List.cons_append, List.append_assoc, List.nil_append] at hrest
    have hif := Passes.advance hrest
    obtain ⟨afterCondition, afterBody, hcondition, hthen, hbody, hpasses⟩ :=
      IsRead.branch ihCondition ihBody isThen hadmissible.1 hadmissible.2
        (Nat.le_of_succ_le_succ hdepth) (hif.ended heof) hif.rest
        (Symbol.ends_of_closes (Symbol.closes_of_kind isEnd rfl))
    refine ⟨_, ?_, (hif.trans hpasses).trans (.advance hpasses.rest)⟩
    have hkind : state.next.kind = .ifWord := State.next_of_rest hrest ▸ isIf
    have hkindEnd : afterBody.next.kind = .endWord := State.next_of_rest hpasses.rest ▸ isEnd
    simp only [Makes, Rule.of, Rule.expression, hkind, Rule.conditional]
    rw [hcondition, hthen, hbody]
    simp only [hkindEnd]
    rw [State.expect_of_rest _ hpasses.rest isEnd (by decide), State.next_of_rest hrest]
    rfl

theorem ifThenElse {ifToken thenToken elseToken endToken : Token}
    {condition body otherwise : Derivation (.one .expression)}
    (isIf : ifToken.kind = .ifWord) (isThen : thenToken.kind = .thenWord)
    (isElse : elseToken.kind = .elseWord) (isEnd : endToken.kind = .endWord)
    (ihCondition : condition.IsRead) (ihBody : body.IsRead) (ihOtherwise : otherwise.IsRead) :
    (ifThenElse ifToken condition thenToken body elseToken otherwise endToken isIf isThen isElse
      isEnd).ReadsBefore behind := by
  intro hadmissible levels state hdepth heof hrest
  cases levels with
  | zero => cases hdepth
  | succ levels =>
    have hdepth := Nat.le_of_succ_le_succ hdepth
    have hdepthBranch : max condition.depth body.depth ≤ levels := by omega
    have hdepthOtherwise : otherwise.depth ≤ levels := by omega
    simp only [tokens, List.cons_append, List.append_assoc, List.nil_append] at hrest
    have hif := Passes.advance hrest
    obtain ⟨afterCondition, afterBody, hcondition, hthen, hbody, hpasses⟩ :=
      IsRead.branch ihCondition ihBody isThen hadmissible.1 hadmissible.2.1 hdepthBranch
        (hif.ended heof) hif.rest (Symbol.ends_of_closes (Symbol.closes_of_kind isElse rfl))
    have helse := (hif.trans hpasses).trans (.advance hpasses.rest)
    obtain ⟨after, hotherwise, hpassesOtherwise⟩ := ihOtherwise.closed hadmissible.2.2
      hdepthOtherwise (helse.ended heof) helse.rest (Symbol.closes_of_kind isEnd rfl)
    refine ⟨_, ?_, (helse.trans hpassesOtherwise).trans (.advance hpassesOtherwise.rest)⟩
    have hkind : state.next.kind = .ifWord := State.next_of_rest hrest ▸ isIf
    have hkindElse : afterBody.next.kind = .elseWord := State.next_of_rest hpasses.rest ▸ isElse
    simp only [Makes, Rule.of, Rule.expression, hkind, Rule.conditional] at hotherwise ⊢
    rw [hcondition, hthen, hbody]
    simp only [hkindElse, if_true]
    rw [hotherwise, State.expect_of_rest _ hpassesOtherwise.rest isEnd (by decide),
      State.next_of_rest hrest, State.next_of_rest hpasses.rest]
    rfl

end ReadsBefore

namespace IsRead

theorem of_before {symbol : Symbol} {d : Derivation symbol}
    (h : ∀ behind, symbol.Ends behind → d.ReadsBefore behind) : d.IsRead :=
  fun hadmissible levels state behind hdepth heof hrest hends =>
    h behind hends hadmissible levels state hdepth heof hrest

theorem comparison {operands : Derivation (.one (.chain .comparison))} (ih : operands.IsRead) :
    (comparison operands).IsRead := by
  intro hadmissible levels state behind hdepth heof hrest hends
  cases levels with
  | zero => cases hdepth
  | succ levels =>
    obtain ⟨after, hmakes, hafter⟩ :=
      ih hadmissible levels state behind (Nat.le_of_succ_le_succ hdepth) heof hrest hends
    refine ⟨after, ?_, hafter⟩
    simp only [Makes, Rule.of] at hmakes ⊢
    rw [expression_of_operands hrest]
    exact hmakes

theorem chain {level : Level} {first : Derivation (.one level.operand)}
    {rest : Derivation (.many level)} (ihFirst : first.IsRead) (ihRest : rest.IsRead) :
    (chain first rest).IsRead := by
  intro hadmissible levels state behind hdepth heof hrest hends
  obtain ⟨hdepthFirst, hdepthRest⟩ := Nat.max_le.mp hdepth
  rw [tokens, List.append_assoc] at hrest
  obtain ⟨afterFirst, hmakesFirst, hpassesFirst⟩ := ihFirst hadmissible.1 levels state _ hdepthFirst
    heof hrest (rest.ends_operand hends)
  obtain ⟨after, hmakesRest, hpassesRest⟩ := ihRest hadmissible.2 levels afterFirst behind
    hdepthRest (hpassesFirst.ended heof) hpassesFirst.rest hends
  refine ⟨after, ?_, hpassesFirst.trans hpassesRest⟩
  simp only [Makes] at hmakesFirst ⊢
  rw [Rule.of_chain, Rule.chain, hmakesFirst]
  exact hmakesRest _ _ (Nat.lt_succ_self _)

theorem nothing {level : Level} : (nothing : Derivation (.many level)).IsRead := by
  intro _ levels state behind _ heof hrest hends
  obtain rfl : state.rest = behind := hrest
  refine ⟨state.look, ?_, .look state⟩
  have hstops : level.holds state.next.kind = false := by
    cases hholds : level.holds state.next.kind with
    | false => rfl
    | true =>
      have hextends := State.next_of_ends heof hends
      rw [Symbol.extendedBy_of_holds hholds] at hextends
      cases hextends
  intro left fuel hfuel
  cases fuel with
  | zero => cases hfuel
  | succ fuel =>
    rw [Rule.operators, hstops]
    rfl

theorem more {level : Level} {operator : Token} {operand : Derivation (.one level.operand)}
    {rest : Derivation (.many level)} (isOperator : level.holds operator.kind = true)
    (ihOperand : operand.IsRead) (ihRest : rest.IsRead) :
    (more operator operand rest isOperator).IsRead := by
  intro hadmissible levels state behind hdepth heof hrest hends
  obtain ⟨hdepthOperand, hdepthRest⟩ := Nat.max_le.mp hdepth
  simp only [tokens, List.cons_append, List.append_assoc] at hrest
  have hoperator := Passes.advance hrest
  obtain ⟨afterOperand, hmakesOperand, hpassesOperand⟩ := ihOperand hadmissible.1 levels
    state.advance _ hdepthOperand (hoperator.ended heof) hoperator.rest (rest.ends_operand hends)
  obtain ⟨after, hmakesRest, hpassesRest⟩ := ihRest hadmissible.2 levels afterOperand behind
    hdepthRest (hpassesOperand.ended heof) hpassesOperand.rest hends
  refine ⟨after, ?_, (hoperator.trans hpassesOperand).trans hpassesRest⟩
  intro left fuel hfuel
  have hnext := State.next_of_rest hrest
  simp only [Makes] at hmakesOperand
  cases fuel with
  | zero => cases hfuel
  | succ fuel =>
    rw [Rule.operators, hnext, isOperator, if_pos rfl, hmakesOperand]
    apply hmakesRest
    rw [hpassesOperand.rest]
    rw [hrest] at hfuel
    simp only [List.length_cons, List.length_append] at hfuel ⊢
    omega

theorem literal {number : Derivation (.one .number)} (ih : number.IsRead) :
    (literal number).IsRead := by
  intro hadmissible levels state behind hdepth heof hrest hends
  obtain ⟨after, hmakes, hafter⟩ :=
    ih hadmissible levels state behind hdepth heof hrest hends
  refine ⟨after, ?_, hafter⟩
  have hkind : state.next.kind = .number := by
    simpa [Nonterminal.begins] using begins_next (d := number) hrest
  simp only [Makes, Rule.of, Rule.primary, hkind] at hmakes ⊢
  exact hmakes

theorem reference {name : Token} (isName : name.kind = .identifier) :
    (reference name isName).IsRead := by
  intro _ levels state behind _ heof hrest hends
  have hnext := State.next_of_rest hrest
  refine ⟨_, ?_, .advance hrest⟩
  simp only [Makes, Rule.of, Rule.primary, hnext, isName]
  rfl

theorem group {left right : Token} {inner : Derivation (.one .expression)}
    (isLeft : left.kind = .leftParen) (isRight : right.kind = .rightParen) (ih : inner.IsRead) :
    (group left inner right isLeft isRight).IsRead := by
  intro hadmissible levels state behind hdepth heof hrest hends
  simp only [tokens, List.cons_append, List.append_assoc, List.nil_append] at hrest
  have hleft := Passes.advance hrest
  obtain ⟨after, hmakes, hpasses⟩ := ih.closed hadmissible hdepth (hleft.ended heof) hleft.rest
    (Symbol.closes_of_kind isRight rfl)
  refine ⟨_, ?_, (hleft.trans hpasses).trans (.advance hpasses.rest)⟩
  have hkind : state.next.kind = .leftParen := State.next_of_rest hrest ▸ isLeft
  simp only [Makes, Rule.of, Rule.primary, hkind, Rule.parenthesized] at hmakes ⊢
  rw [hmakes, State.expect_of_rest _ hpasses.rest isRight (by decide)]
  rfl

theorem integer {digits : Token} (isDigits : digits.kind = .number) :
    (integer digits isDigits).IsRead := by
  intro hadmissible levels state behind _ heof hrest hends
  have hdigits := Passes.advance hrest
  refine ⟨_, ?_, hdigits⟩
  have hpoint : state.advance.next.kind ≠ .period := by
    have hextends := State.next_of_ends (hdigits.ended heof) (by rw [hdigits.rest]; exact hends)
    intro hkind
    rw [hkind] at hextends
    cases hextends
  have hlength : ¬Decimal.maxDigits < digits.lexeme.toList.length := by
    rw [String.length_toList]
    exact Nat.not_lt.mpr hadmissible
  simp only [Makes, Rule.of, Rule.number, hpoint, if_false, Rule.integer, State.next_of_rest hrest,
    hlength]
  rfl

theorem real {whole point fraction : Token} (isWhole : whole.kind = .number)
    (isPoint : point.kind = .period) (isFraction : fraction.kind = .number) :
    (real whole point fraction isWhole isPoint isFraction).IsRead := by
  intro hadmissible levels state behind _ heof hrest hends
  have hwhole := Passes.advance hrest
  have hpoint := Passes.advance hwhole.rest
  have hfraction := Passes.advance hpoint.rest
  refine ⟨_, ?_, (hwhole.trans hpoint).trans hfraction⟩
  have htouching : Rule.touching whole point fraction = true := by
    simp only [Rule.touching, Bool.and_eq_true, decide_eq_true_eq]
    exact hadmissible
  simp only [Makes, Rule.of, Rule.number, State.next_of_rest hwhole.rest, isPoint, if_true,
    Rule.real, State.next_of_rest hpoint.rest, isFraction, State.next_of_rest hrest, htouching]
  rfl

end IsRead

theorem isRead {symbol : Symbol} (d : Derivation symbol) : d.IsRead := by
  induction d with
  | binding letToken name equals body isLet isName isEquals ih =>
    exact .of_before fun behind hends => .binding isLet isName isEquals (ih.before hends)
  | ifThen ifToken condition thenToken body endToken isIf isThen isEnd ihCondition ihBody =>
    exact .of_before fun behind _ => .ifThen isIf isThen isEnd ihCondition ihBody
  | ifThenElse ifToken condition thenToken body elseToken otherwise endToken isIf isThen isElse
      isEnd ihCondition ihBody ihOtherwise =>
    exact .of_before fun behind _ =>
      .ifThenElse isIf isThen isElse isEnd ihCondition ihBody ihOtherwise
  | comparison operands ih => exact ih.comparison
  | chain first rest ihFirst ihRest => exact ihFirst.chain ihRest
  | nothing => exact .nothing
  | more operator operand rest isOperator ihOperand ihRest =>
    exact .more isOperator ihOperand ihRest
  | literal number ih => exact ih.literal
  | reference name isName => exact .reference isName
  | group left inner right isLeft isRight ih => exact .group isLeft isRight ih
  | integer digits isDigits => exact .integer isDigits
  | real whole point fraction isWhole isPoint isFraction => exact .real isWhole isPoint isFraction

end Calculator.Grammar.Derivation
