import Calculator.Proofs.Lexing.Joining
import Calculator.Proofs.Parsing.History
import Calculator.Proofs.Parsing.Reports

namespace Calculator.Grammar.Derivation

-- The expressions at a level: an expression is at level one, those directly in it at level two.
def levelled (own : Derivation (.one .expression))
    (inner : Nat → List (Derivation (.one .expression))) :
    Nat → List (Derivation (.one .expression))
  | 0 => []
  | 1 => [own]
  | level + 2 => inner (level + 1)

-- The expressions at a level of nesting, in source order.
def expressionsAt {symbol : Symbol} :
    Derivation symbol → Nat → List (Derivation (.one .expression))
  | binding letToken name equals body isLet isName isEquals =>
    levelled (binding letToken name equals body isLet isName isEquals) body.expressionsAt
  | ifThen ifToken condition thenToken body endToken isIf isThen isEnd =>
    levelled (ifThen ifToken condition thenToken body endToken isIf isThen isEnd) fun level =>
      condition.expressionsAt level ++ body.expressionsAt level
  | ifThenElse ifToken condition thenToken body elseToken otherwise endToken isIf isThen isElse
      isEnd =>
    levelled (ifThenElse ifToken condition thenToken body elseToken otherwise endToken isIf isThen
      isElse isEnd) fun level =>
        condition.expressionsAt level ++ (body.expressionsAt level ++ otherwise.expressionsAt level)
  | comparison operands => levelled (comparison operands) operands.expressionsAt
  | chain first rest => fun level => first.expressionsAt level ++ rest.expressionsAt level
  | nothing => fun _ => []
  | more _ operand rest _ => fun level => operand.expressionsAt level ++ rest.expressionsAt level
  | literal number => number.expressionsAt
  | reference _ _ => fun _ => []
  | group _ inner _ _ _ => inner.expressionsAt
  | integer _ _ => fun _ => []
  | real _ _ _ _ _ _ => fun _ => []

theorem expressionsAt_one (d : Derivation (.one .expression)) : d.expressionsAt 1 = [d] := by
  cases d <;> rfl

theorem expressionsAt_eq_nil {symbol : Symbol} {d : Derivation symbol} {level : Nat}
    (h : d.depth ≤ level) : d.expressionsAt (level + 1) = [] := by
  induction d generalizing level with
  | nothing | reference | integer | real => rfl
  | literal number ih => exact ih h
  | group left inner right isLeft isRight ih => exact ih h
  | chain first rest ihFirst ihRest =>
    obtain ⟨hfirst, hrest⟩ := Nat.max_le.mp h
    simp only [expressionsAt, ihFirst hfirst, ihRest hrest, List.append_nil]
  | more operator operand rest isOperator ihOperand ihRest =>
    obtain ⟨hoperand, hrest⟩ := Nat.max_le.mp h
    simp only [expressionsAt, ihOperand hoperand, ihRest hrest, List.append_nil]
  | binding letToken name equals body isLet isName isEquals ih =>
    cases level with
    | zero => cases h
    | succ level => exact ih (Nat.le_of_succ_le_succ h)
  | comparison operands ih =>
    cases level with
    | zero => cases h
    | succ level => exact ih (Nat.le_of_succ_le_succ h)
  | ifThen ifToken condition thenToken body endToken isIf isThen isEnd ihCondition ihBody =>
    cases level with
    | zero => cases h
    | succ level =>
      obtain ⟨hcondition, hbody⟩ := Nat.max_le.mp (Nat.le_of_succ_le_succ h)
      simp only [expressionsAt, levelled, ihCondition hcondition, ihBody hbody, List.append_nil]
  | ifThenElse ifToken condition thenToken body elseToken otherwise endToken isIf isThen isElse
      isEnd ihCondition ihBody ihOtherwise =>
    cases level with
    | zero => cases h
    | succ level =>
      obtain ⟨hcondition, hbranches⟩ := Nat.max_le.mp (Nat.le_of_succ_le_succ h)
      obtain ⟨hbody, hotherwise⟩ := Nat.max_le.mp hbranches
      simp only [expressionsAt, levelled, ihCondition hcondition, ihBody hbody,
        ihOtherwise hotherwise, List.append_nil]

-- That the leftmost of some expressions begins with a token.
def Begin (expressions : List (Derivation (.one .expression))) (token : Token) : Prop :=
  ∃ leftmost others, expressions = leftmost :: others ∧ leftmost.tokens.head? = some token

namespace Begin

variable {expressions others : List (Derivation (.one .expression))} {token : Token}

theorem append_left (h : Begin expressions token) : Begin (expressions ++ others) token := by
  obtain ⟨leftmost, rest, rfl, hhead⟩ := h
  exact ⟨leftmost, rest ++ others, rfl, hhead⟩

theorem append_right (hnone : others = []) (h : Begin expressions token) :
    Begin (others ++ expressions) token := by
  rwa [hnone, List.nil_append]

end Begin

end Calculator.Grammar.Derivation

namespace Calculator.Parser

open Grammar

-- A state in which reading was given up: nothing is left, and nothing more will be reported.
structure State.Spent (eof : Token) (reports : List Diagnostic) (state : State) : Prop where
  eof : state.eof = eof
  rest : state.rest = []
  abandoned : state.abandoned = true
  reports : state.reports = reports

theorem Move.spent {state after : State} {eof : Token} {reports : List Diagnostic}
    (heof : eof.kind = .eof) (h : Move state after) (hstate : state.Spent eof reports) :
    after.Spent eof reports := by
  have hquiet : ∀ {reading : State} (message : String) (token : Token),
      reading.Spent eof reports → (reading.complain message token).Spent eof reports := by
    intro reading message token hreading
    unfold State.complain
    rwa [if_pos hreading.abandoned]
  cases h with
  | look => exact ⟨hstate.eof, hstate.rest, hstate.abandoned, hstate.reports⟩
  | take valid =>
    exact ⟨hstate.eof, congrArg List.tail hstate.rest, hstate.abandoned, hstate.reports⟩
  | skip invalid =>
    have hnext : state.next.kind = .eof := by simp [State.next, hstate.rest, hstate.eof, heof]
    rw [hnext] at invalid
    cases invalid
  | blame message count other valid =>
    obtain ⟨hrest, heof, hreports, habandoned⟩ := State.advances_eq count state
    refine hquiet _ _ ⟨heof.trans hstate.eof, ?_, habandoned.trans hstate.abandoned,
      hreports.trans hstate.reports⟩
    rw [hrest, hstate.rest, List.drop_nil]
  | giveUp =>
    obtain ⟨heof, _, _, hreports⟩ := hquiet Message.tooDeep state.next hstate
    exact ⟨heof, rfl, rfl, hreports⟩

-- That reading was given up at a token on the way from a state, with no other report.
def GivesUp (state : State) (token : Token) (after : State) : Prop :=
  after.Spent state.eof (misplaced Message.tooDeep token :: state.reports)

namespace GivesUp

variable {state middle after : State} {token : Token}

theorem moves (h : GivesUp state token middle) (heof : state.eof.kind = .eof)
    (hmoves : Moves middle after) : GivesUp state token after :=
  hmoves.keeps (fun move hspent => move.spent heof hspent) h

theorem of_passes {behind : List Token} (h : Passes state middle behind)
    (h' : GivesUp middle token after) : GivesUp state token after := by
  unfold GivesUp at h' ⊢
  rwa [h.eof, h.reports] at h'

end GivesUp

theorem Passes.intact {state after : State} {behind : List Token} (h : Passes state after behind)
    (hstate : state.Intact) : after.Intact :=
  ⟨h.ended hstate.eof, h.abandoned.trans hstate.abandoned⟩

namespace Rule

theorem expression_moves (levels : Nat) {state : State} (heof : state.eof.kind = .eof) :
    Moves state (expression levels state).2 :=
  (expression_reads levels state heof).moves

theorem operand_follows (levels : Nat) (level : Level) : Follows levels level.operand := by
  have hprimary : Follows levels .primary := primary_follows (expression_reads levels)
  have hproduct : Follows levels (.chain .product) := chain_follows hprimary
  have hsum : Follows levels (.chain .sum) := chain_follows hproduct
  cases level with
  | comparison => exact hsum
  | sum => exact hproduct
  | product => exact hprimary

theorem operators_moves (levels : Nat) (level : Level) (fuel : Nat) (left : Expression)
    {state : State} (heof : state.eof.kind = .eof) (hfuel : state.rest.length < fuel) :
    Moves state (operators level.holds (of levels level.operand) fuel left state).2 := by
  obtain ⟨steps, hreads, _⟩ := operators_follow (operand_follows levels level) fuel left state heof
    hfuel
  exact hreads.moves

theorem conditional_moves_body (levels : Nat) {state : State} (heof : state.eof.kind = .eof) :
    Moves (expression levels
        ((expression levels state.advance).2.expect .thenWord "'then'").2).2
      (conditional (expression levels) state).2 := by
  have hcondition := (expression_reads levels state.advance heof).leadsTo
  have hthen := State.ended_expect .thenWord "'then'" (hcondition.ended heof)
  have hbody := (expression_reads levels _ hthen).leadsTo
  unfold conditional
  dsimp only
  split
  · rename_i isElse
    have helse := Moves.take isElse (by decide)
    have hotherwise := (helse.trans (expression_moves levels (hbody.ended hthen)))
    exact hotherwise.trans (State.moves_expect (by decide) rfl)
  · exact State.moves_expect (by decide) rfl

theorem conditional_moves_condition (levels : Nat) {state : State} (heof : state.eof.kind = .eof) :
    Moves (expression levels state.advance).2 (conditional (expression levels) state).2 := by
  have hcondition := (expression_reads levels state.advance heof).leadsTo
  have hthen := State.ended_expect .thenWord "'then'" (hcondition.ended heof)
  have hbody := (State.moves_expect (by decide) rfl).trans (expression_moves levels hthen)
  exact hbody.trans (conditional_moves_body levels heof)

end Rule

theorem Rule.tooDeep_givesUp {state : State} (h : state.Intact) :
    GivesUp state state.next (Rule.expression 0 state).2 :=
  ⟨(State.LeadsTo.complain Message.tooDeep state.next state).eof, rfl, rfl,
    State.reports_complain Message.tooDeep state.next h.abandoned⟩

-- That the rule of a symbol, begun at a state, ends in a state of a kind.
def Leaves (levels : Nat) : Symbol → State → (State → Prop) → Prop
  | .one nonterminal, state, post => post (Rule.of levels nonterminal state).2
  | .many level, state, post => ∀ left fuel, state.rest.length < fuel →
    post (Rule.operators level.holds (Rule.of levels level.operand) fuel left state).2

end Calculator.Parser

namespace Calculator.Grammar.Derivation

open Calculator.Parser

-- In front of these tokens, reading a derivation that is too deep is given up at the leftmost
-- expression of the first level there is no room for.
def CurtailedBefore {symbol : Symbol} (d : Derivation symbol) (behind : List Token) : Prop :=
  d.Admissible → ∀ (levels : Nat) (state : State), levels < d.depth → state.Intact →
    state.rest = d.tokens ++ behind →
      ∃ token, Begin (d.expressionsAt (levels + 1)) token ∧
        Leaves levels symbol state (GivesUp state token)

-- It is given up so in front of tokens that do not extend the derivation.
def IsCurtailed {symbol : Symbol} (d : Derivation symbol) : Prop :=
  d.Admissible → ∀ (levels : Nat) (state : State) (behind : List Token), levels < d.depth →
    state.Intact → state.rest = d.tokens ++ behind → symbol.Ends behind →
      ∃ token, Begin (d.expressionsAt (levels + 1)) token ∧
        Leaves levels symbol state (GivesUp state token)

namespace IsCurtailed

theorem before {symbol : Symbol} {d : Derivation symbol} (h : d.IsCurtailed) {behind : List Token}
    (hends : symbol.Ends behind) : d.CurtailedBefore behind :=
  fun hadmissible levels state hdepth hstate hrest =>
    h hadmissible levels state behind hdepth hstate hrest hends

theorem of_before {symbol : Symbol} {d : Derivation symbol}
    (h : ∀ behind, symbol.Ends behind → d.CurtailedBefore behind) : d.IsCurtailed :=
  fun hadmissible levels state behind hdepth hstate hrest hends =>
    h behind hends hadmissible levels state hdepth hstate hrest

theorem at_once (d : Derivation (.one .expression)) {state : State} {behind : List Token}
    (hstate : state.Intact) (hrest : state.rest = d.tokens ++ behind) :
    ∃ token, Begin (d.expressionsAt 1) token ∧ Leaves 0 (.one .expression) state
      (GivesUp state token) := by
  obtain ⟨token, rest, htokens, _⟩ := d.begins
  rw [htokens] at hrest
  refine ⟨token, ⟨d, [], d.expressionsAt_one, by rw [htokens]; rfl⟩, ?_⟩
  rw [← State.next_of_rest hrest]
  exact Rule.tooDeep_givesUp hstate

-- A condition and the branch behind it, in front of tokens that do not extend the branch, if one of
-- them is too deep.
theorem branch {condition body : Derivation (.one .expression)} {thenToken : Token}
    (ihCondition : condition.IsCurtailed) (ihBody : body.IsCurtailed)
    (isThen : thenToken.kind = .thenWord) (hcondition : condition.Admissible)
    (hbody : body.Admissible) {levels : Nat} (hdepth : levels < max condition.depth body.depth)
    {state : State} (hstate : state.Intact) {behind : List Token}
    (hrest : state.advance.rest = condition.tokens ++ thenToken :: (body.tokens ++ behind))
    (hends : (Symbol.one .expression).Ends behind) :
    ∃ token, Begin (condition.expressionsAt (levels + 1) ++ body.expressionsAt (levels + 1)) token ∧
      GivesUp state.advance token (Rule.conditional (Rule.expression levels) state).2 := by
  have hadvance := hstate.advance
  by_cases hdeep : levels < condition.depth
  · obtain ⟨token, hbegin, hgives⟩ := ihCondition hcondition levels state.advance _ hdeep hadvance
      hrest (Symbol.ends_of_closes (Symbol.closes_of_kind isThen rfl))
    exact ⟨token, hbegin.append_left,
      hgives.moves hadvance.eof (Rule.conditional_moves_condition levels hstate.eof)⟩
  · have hshallow : condition.depth ≤ levels := Nat.not_lt.mp hdeep
    obtain ⟨middle, hmakes, hpasses⟩ := condition.isRead.closed hcondition hshallow hadvance.eof
      hrest (Symbol.closes_of_kind isThen rfl)
    have hthen := hpasses.trans (.advance hpasses.rest)
    obtain ⟨token, hbegin, hgives⟩ := ihBody hbody levels middle.advance _ (by omega)
      (hthen.intact hadvance) hthen.rest hends
    have hmoves := Rule.conditional_moves_body levels hstate.eof
    simp only [Makes, Rule.of] at hmakes
    rw [hmakes, State.expect_of_rest _ hpasses.rest isThen (by decide)] at hmoves
    refine ⟨token, hbegin.append_right (expressionsAt_eq_nil hshallow), ?_⟩
    exact (hgives.of_passes hthen).moves hadvance.eof hmoves

end IsCurtailed

namespace CurtailedBefore

variable {behind : List Token}

theorem binding {letToken name equals : Token} {body : Derivation (.one .expression)}
    (isLet : letToken.kind = .letWord) (isName : name.kind = .identifier)
    (isEquals : equals.kind = .equals) (ih : body.CurtailedBefore behind) :
    (binding letToken name equals body isLet isName isEquals).CurtailedBefore behind := by
  intro hadmissible levels state hdepth hstate hrest
  cases levels with
  | zero => exact IsCurtailed.at_once _ hstate hrest
  | succ levels =>
    have hlet := Passes.advance hrest
    have hname := Passes.advance hlet.rest
    have hequals := Passes.advance hname.rest
    have hpasses := (hlet.trans hname).trans hequals
    obtain ⟨token, hbegin, hgives⟩ := ih hadmissible levels _ (Nat.lt_of_succ_lt_succ hdepth)
      (hpasses.intact hstate) hpasses.rest
    refine ⟨token, hbegin, ?_⟩
    have hkind : state.next.kind = .letWord := State.next_of_rest hrest ▸ isLet
    simp only [Leaves, Rule.of, Rule.expression, hkind, Rule.binding] at hgives ⊢
    rw [State.expect_of_rest _ hlet.rest isName (by decide),
      State.expect_of_rest _ hname.rest isEquals (by decide)]
    exact hgives.of_passes hpasses

theorem ifThen {ifToken thenToken endToken : Token} {condition body : Derivation (.one .expression)}
    (isIf : ifToken.kind = .ifWord) (isThen : thenToken.kind = .thenWord)
    (isEnd : endToken.kind = .endWord) (ihCondition : condition.IsCurtailed)
    (ihBody : body.IsCurtailed) :
    (ifThen ifToken condition thenToken body endToken isIf isThen isEnd).CurtailedBefore
      behind := by
  intro hadmissible levels state hdepth hstate hrest
  cases levels with
  | zero => exact IsCurtailed.at_once _ hstate hrest
  | succ levels =>
    simp only [tokens, List.cons_append, List.append_assoc, List.nil_append] at hrest
    have hif := Passes.advance hrest
    obtain ⟨token, hbegin, hgives⟩ := IsCurtailed.branch ihCondition ihBody isThen hadmissible.1
      hadmissible.2 (Nat.lt_of_succ_lt_succ hdepth) hstate hif.rest
      (Symbol.ends_of_closes (Symbol.closes_of_kind isEnd rfl))
    refine ⟨token, hbegin, ?_⟩
    have hkind : state.next.kind = .ifWord := State.next_of_rest hrest ▸ isIf
    simp only [Leaves, Rule.of, Rule.expression, hkind]
    exact hgives.of_passes hif

theorem ifThenElse {ifToken thenToken elseToken endToken : Token}
    {condition body otherwise : Derivation (.one .expression)}
    (isIf : ifToken.kind = .ifWord) (isThen : thenToken.kind = .thenWord)
    (isElse : elseToken.kind = .elseWord) (isEnd : endToken.kind = .endWord)
    (ihCondition : condition.IsCurtailed) (ihBody : body.IsCurtailed)
    (ihOtherwise : otherwise.IsCurtailed) :
    (ifThenElse ifToken condition thenToken body elseToken otherwise endToken isIf isThen isElse
      isEnd).CurtailedBefore behind := by
  intro hadmissible levels state hdepth hstate hrest
  cases levels with
  | zero => exact IsCurtailed.at_once _ hstate hrest
  | succ levels =>
    have hdepth := Nat.lt_of_succ_lt_succ hdepth
    simp only [tokens, List.cons_append, List.append_assoc, List.nil_append] at hrest
    have hif := Passes.advance hrest
    have hkind : state.next.kind = .ifWord := State.next_of_rest hrest ▸ isIf
    simp only [Leaves, Rule.of, Rule.expression, hkind, expressionsAt, levelled]
    rw [← List.append_assoc]
    have hcloses : (Symbol.one .expression).Ends
        (elseToken :: (otherwise.tokens ++ endToken :: behind)) :=
      Symbol.ends_of_closes (Symbol.closes_of_kind isElse rfl)
    by_cases hbranch : levels < max condition.depth body.depth
    · obtain ⟨token, hbegin, hgives⟩ := IsCurtailed.branch ihCondition ihBody isThen hadmissible.1
        hadmissible.2.1 hbranch hstate hif.rest hcloses
      exact ⟨token, hbegin.append_left, hgives.of_passes hif⟩
    · have hshallow : max condition.depth body.depth ≤ levels := Nat.not_lt.mp hbranch
      obtain ⟨hshallowCondition, hshallowBody⟩ := Nat.max_le.mp hshallow
      obtain ⟨afterCondition, afterBody, hcondition, hthen, hbody, hpasses⟩ :=
        IsRead.branch condition.isRead body.isRead isThen hadmissible.1 hadmissible.2.1 hshallow
          hstate.advance.eof hif.rest hcloses
      have helse := (hif.trans hpasses).trans (.advance hpasses.rest)
      obtain ⟨token, hbegin, hgives⟩ := ihOtherwise hadmissible.2.2 levels afterBody.advance _
        (by omega) (helse.intact hstate) helse.rest
        (Symbol.ends_of_closes (Symbol.closes_of_kind isEnd rfl))
      have hnone :
          condition.expressionsAt (levels + 1) ++ body.expressionsAt (levels + 1) = [] := by
        rw [expressionsAt_eq_nil hshallowCondition, expressionsAt_eq_nil hshallowBody]
        rfl
      refine ⟨token, hbegin.append_right hnone, ?_⟩
      have hkindElse : afterBody.next.kind = .elseWord := State.next_of_rest hpasses.rest ▸ isElse
      simp only [Leaves, Rule.of] at hgives
      simp only [Rule.conditional]
      rw [hcondition, hthen, hbody]
      simp only [hkindElse, if_true]
      exact (hgives.of_passes helse).moves hstate.eof (State.moves_expect (by decide) rfl)

end CurtailedBefore

namespace IsCurtailed

theorem comparison {operands : Derivation (.one (.chain .comparison))} (ih : operands.IsCurtailed) :
    (comparison operands).IsCurtailed := by
  intro hadmissible levels state behind hdepth hstate hrest hends
  cases levels with
  | zero => exact at_once _ hstate hrest
  | succ levels =>
    obtain ⟨token, hbegin, hgives⟩ := ih hadmissible levels state behind
      (Nat.lt_of_succ_lt_succ hdepth) hstate hrest hends
    refine ⟨token, hbegin, ?_⟩
    simp only [Leaves, Rule.of] at hgives ⊢
    rwa [expression_of_operands hrest]

theorem chain {level : Level} {first : Derivation (.one level.operand)}
    {rest : Derivation (.many level)} (ihFirst : first.IsCurtailed) (ihRest : rest.IsCurtailed) :
    (chain first rest).IsCurtailed := by
  intro hadmissible levels state behind hdepth hstate hrest hends
  rw [tokens, List.append_assoc] at hrest
  simp only [Leaves]
  rw [Rule.of_chain, Rule.chain]
  by_cases hdeep : levels < first.depth
  · obtain ⟨token, hbegin, hgives⟩ := ihFirst hadmissible.1 levels state _ hdeep hstate hrest
      (rest.ends_operand hends)
    refine ⟨token, hbegin.append_left, ?_⟩
    have heof : (Rule.of levels level.operand state).2.eof.kind = .eof := hgives.eof ▸ hstate.eof
    exact hgives.moves hstate.eof (Rule.operators_moves levels level _ _ heof (Nat.lt_succ_self _))
  · have hshallow : first.depth ≤ levels := Nat.not_lt.mp hdeep
    obtain ⟨middle, hmakes, hpasses⟩ := first.isRead hadmissible.1 levels state _ hshallow
      hstate.eof hrest (rest.ends_operand hends)
    obtain ⟨token, hbegin, hgives⟩ := ihRest hadmissible.2 levels middle behind
      (by simp only [depth] at hdepth; omega) (hpasses.intact hstate) hpasses.rest hends
    refine ⟨token, hbegin.append_right (expressionsAt_eq_nil hshallow), ?_⟩
    simp only [Makes] at hmakes
    rw [hmakes]
    exact (hgives _ _ (Nat.lt_succ_self _)).of_passes hpasses

theorem more {level : Level} {operator : Token} {operand : Derivation (.one level.operand)}
    {rest : Derivation (.many level)} (isOperator : level.holds operator.kind = true)
    (ihOperand : operand.IsCurtailed) (ihRest : rest.IsCurtailed) :
    (more operator operand rest isOperator).IsCurtailed := by
  intro hadmissible levels state behind hdepth hstate hrest hends
  simp only [tokens, List.cons_append, List.append_assoc] at hrest
  have hoperator := Passes.advance hrest
  have hadvance := hstate.advance
  have hlength := congrArg List.length hrest
  by_cases hdeep : levels < operand.depth
  · obtain ⟨token, hbegin, hgives⟩ := ihOperand hadmissible.1 levels state.advance _ hdeep hadvance
      hoperator.rest (rest.ends_operand hends)
    refine ⟨token, hbegin.append_left, fun left fuel hfuel => ?_⟩
    cases fuel with
    | zero => cases hfuel
    | succ fuel =>
      rw [Rule.operators, State.next_of_rest hrest, isOperator, if_pos rfl]
      simp only [Leaves] at hgives
      have heof := hgives.eof ▸ hadvance.eof
      refine hgives.moves hadvance.eof (Rule.operators_moves levels level _ _ heof ?_)
      rw [hgives.rest]
      simp only [List.length_cons] at hlength
      simp only [List.length_nil]
      omega
  · have hshallow : operand.depth ≤ levels := Nat.not_lt.mp hdeep
    obtain ⟨middle, hmakes, hpasses⟩ := operand.isRead hadmissible.1 levels state.advance _ hshallow
      hadvance.eof hoperator.rest (rest.ends_operand hends)
    have hread := hoperator.trans hpasses
    obtain ⟨token, hbegin, hgives⟩ := ihRest hadmissible.2 levels middle behind
      (by simp only [depth] at hdepth; omega) (hread.intact hstate) hread.rest hends
    refine ⟨token, hbegin.append_right (expressionsAt_eq_nil hshallow), fun left fuel hfuel => ?_⟩
    cases fuel with
    | zero => cases hfuel
    | succ fuel =>
      simp only [Makes] at hmakes
      rw [Rule.operators, State.next_of_rest hrest, isOperator, if_pos rfl, hmakes]
      refine (hgives _ _ ?_).of_passes hread
      rw [hread.rest]
      simp only [List.length_cons, List.length_append] at hlength ⊢
      omega

theorem group {left right : Token} {inner : Derivation (.one .expression)}
    (isLeft : left.kind = .leftParen) (isRight : right.kind = .rightParen)
    (ih : inner.IsCurtailed) : (group left inner right isLeft isRight).IsCurtailed := by
  intro hadmissible levels state behind hdepth hstate hrest hends
  simp only [tokens, List.cons_append, List.append_assoc, List.nil_append] at hrest
  have hleft := Passes.advance hrest
  obtain ⟨token, hbegin, hgives⟩ := ih hadmissible levels state.advance _ hdepth hstate.advance
    hleft.rest (Symbol.ends_of_closes (Symbol.closes_of_kind isRight rfl))
  refine ⟨token, hbegin, ?_⟩
  have hkind : state.next.kind = .leftParen := State.next_of_rest hrest ▸ isLeft
  simp only [Leaves, Rule.of, Rule.primary, hkind, Rule.parenthesized] at hgives ⊢
  exact (hgives.of_passes hleft).moves hstate.eof (State.moves_expect (by decide) rfl)

end IsCurtailed

theorem isCurtailed {symbol : Symbol} (d : Derivation symbol) : d.IsCurtailed := by
  induction d with
  | binding letToken name equals body isLet isName isEquals ih =>
    exact .of_before fun behind hends => .binding isLet isName isEquals (ih.before hends)
  | ifThen ifToken condition thenToken body endToken isIf isThen isEnd ihCondition ihBody =>
    exact .of_before fun behind _ => .ifThen isIf isThen isEnd ihCondition ihBody
  | ifThenElse ifToken condition thenToken body elseToken otherwise endToken isIf isThen isElse
      isEnd ihCondition ihBody ihOtherwise =>
    exact .of_before fun behind _ =>
      .ifThenElse isIf isThen isElse isEnd ihCondition ihBody ihOtherwise
  | comparison operands ih => exact ih.comparison
  | chain first rest ihFirst ihRest => exact ihFirst.chain ihRest
  | more operator operand rest isOperator ihOperand ihRest =>
    exact .more isOperator ihOperand ihRest
  | group left inner right isLeft isRight ih => exact .group isLeft isRight ih
  -- there is no expression in these
  | nothing | reference | integer | real =>
    intro _ levels state behind hdepth
    cases hdepth
  | literal number ih =>
    intro _ levels state behind hdepth
    cases number <;> cases hdepth

end Calculator.Grammar.Derivation

namespace Calculator

open Grammar Calculator.Parser

namespace Parser

theorem State.takeExpression_of_givesUp {state : State} {token : Token} (hstate : state.Intact)
    (hlength : 0 < state.rest.length)
    (hgives : GivesUp state token (Rule.expression maxNesting state).2) :
    state.takeExpression.2.expectEnd.reports =
      misplaced Message.tooDeep token :: state.reports := by
  have htaken : state.takeExpression = Rule.expression maxNesting state := by
    apply takeExpression_of_lt hstate.abandoned
    rwa [hgives.rest]
  simp [htaken, expectEnd, hgives.rest, hgives.reports, leftOver]

theorem State.takeExpression_of_curtailed {state : State} {d : Derivation (.one .expression)}
    (hstate : state.Intact) (hrest : state.rest = d.tokens) (hadmissible : d.Admissible)
    (hdepth : maxNesting < d.depth) :
    ∃ token, Derivation.Begin (d.expressionsAt (maxNesting + 1)) token ∧
      state.takeExpression.2.expectEnd.reports =
        misplaced Message.tooDeep token :: state.reports := by
  obtain ⟨token, hbegin, hgives⟩ := d.isCurtailed hadmissible maxNesting state [] hdepth hstate
    (by rw [hrest, List.append_nil]) (by simp [Symbol.Ends])
  obtain ⟨first, others, htokens, _⟩ := d.begins
  have hlength : 0 < state.rest.length := by
    rw [hrest, htokens]
    exact Nat.succ_pos _
  exact ⟨token, hbegin, takeExpression_of_givesUp hstate hlength hgives⟩

-- What one call reports behind what was reported earlier: that it was given up at most once, and
-- then as the last thing.
inductive Curtailed (earlier : List Diagnostic) (state : State) : Prop where
  | reading (new : List Diagnostic) (split : state.reports = new ++ earlier)
      (other : ∀ d ∈ new, d.isNesting = false) (abandoned : state.abandoned = false)
  | givenUp (new : List Diagnostic) (limit : Token)
      (split : state.reports = misplaced Message.tooDeep limit :: new ++ earlier)
      (other : ∀ d ∈ new, d.isNesting = false) (abandoned : state.abandoned = true)
      (rest : state.rest = [])

theorem Move.curtailed {earlier : List Diagnostic} {state after : State}
    (heof : state.eof.kind = .eof) (h : Move state after) (hstate : Curtailed earlier state) :
    Curtailed earlier after := by
  cases hstate with
  | reading new split other abandoned =>
    cases h with
    | look => exact .reading new split other abandoned
    | take valid => exact .reading new split other abandoned
    | skip invalid =>
      refine .reading (invalidCharacter state.next :: new) ?_ ?_ abandoned
      · simp [split]
      · exact List.forall_mem_cons.mpr ⟨rfl, other⟩
    | blame message count noNesting valid =>
      obtain ⟨_, _, hreports, habandoned⟩ := State.advances_eq count state
      have hlistening := habandoned.trans abandoned
      refine .reading (misplaced message state.next :: new) ?_ ?_ ?_
      · rw [State.reports_complain _ _ hlistening, hreports, split]
        rfl
      · exact List.forall_mem_cons.mpr ⟨isNesting_misplaced noNesting _, other⟩
      · simp [State.complain, hlistening, State.report]
    | giveUp =>
      refine .givenUp new state.next ?_ other rfl rfl
      have hreports := State.reports_complain Message.tooDeep state.next abandoned
      exact hreports.trans (by rw [split]; rfl)
  | givenUp new limit split other abandoned rest =>
    obtain ⟨_, hrest, habandoned, hreports⟩ := h.spent heof ⟨rfl, rest, abandoned, rfl⟩
    exact .givenUp new limit (hreports.trans split) other habandoned hrest

theorem Moves.curtailed {earlier : List Diagnostic} {state after : State}
    (heof : state.eof.kind = .eof) (h : Moves state after) (hstate : Curtailed earlier state) :
    Curtailed earlier after := by
  have hmove : ∀ {state after : State}, Move state after →
      state.eof.kind = .eof ∧ Curtailed earlier state →
        after.eof.kind = .eof ∧ Curtailed earlier after :=
    fun move hstate => ⟨move.leadsTo.ended hstate.1, move.curtailed hstate.1 hstate.2⟩
  exact (h.keeps hmove ⟨heof, hstate⟩).2

theorem curtailed_takeExpression (parser : Parser) :
    Curtailed parser.diagnostics.reverse parser.state.takeExpression.2 := by
  have hmoves : Moves { parser.state with abandoned := false } parser.state.takeExpression.2 :=
    State.moves_takeExpression (Lexer.kind_eof _) rfl
  exact hmoves.curtailed (Lexer.kind_eof _) (.reading [] rfl (by simp) rfl)

end Parser

theorem Lexer.Over.isAtEnd {lexer : Lexer} (h : lexer.Over) : lexer.isAtEnd.1 = true := by
  rw [Lexer.isAtEnd, decide_eq_true_eq, Lexer.peek_fst]
  exact h.read.1

theorem Lexer.Over.expectEnd {parser : Parser} (h : parser.lexer.Over) :
    parser.expectEnd.lexer.Over ∧ parser.expectEnd.diagnostics = parser.diagnostics := by
  have hlexer : parser.expectEnd.lexer = parser.lexer.peek.2 := by
    simp [Parser.expectEnd, Parser.settle, State.expectEnd, Parser.state, h.drain, Lexer.skip]
  constructor
  · rw [hlexer]
    exact h.peek
  · simp [Parser.expectEnd, Parser.settle, State.expectEnd, Parser.state, h.drain, leftOver]

theorem Parser.Message.tooDeep_eq :
    Message.tooDeep = "Expression is nested more than 64 levels deep" := by
  decide

-- A text that the grammar derives, but with expressions nested too deeply, has one diagnostic: it
-- says so where the leftmost expression of the first level too many begins. Whatever a parser
-- reads, a call says so once at most, and then as the last thing: nothing is left to read, and
-- `expectEnd` adds nothing.
theorem nesting_reported_once (source : Source) (file : String) (parser : Parser) :
    (∀ d : Derivation (.one .expression),
      d.tokens = ({ source, file } : Lexer).tokenize.1.dropLast → d.Admissible → 64 < d.depth →
        ∃ leftmost others token, d.expressionsAt 65 = leftmost :: others ∧
          leftmost.tokens.head? = some token ∧
          (Reading.ofSource source file).diagnostics =
            [⟨.syntactic, "Expression is nested more than 64 levels deep", some token.span⟩]) ∧
    ∃ recorded, parser.takeExpression.2.diagnostics = parser.diagnostics ++ recorded ∧
      (recorded.filter Diagnostic.isNesting).length ≤ 1 ∧
      ∀ d ∈ recorded, d.isNesting = true →
        recorded.getLast? = some d ∧
        parser.takeExpression.2.lexer.isAtEnd.1 = true ∧
        parser.takeExpression.2.expectEnd.diagnostics = parser.takeExpression.2.diagnostics ∧
        parser.takeExpression.2.expectEnd.lexer.isAtEnd.1 = true := by
  constructor
  · intro d htokens hadmissible hdepth
    have hintact : State.Intact (.ofLexer { source, file }) := ⟨Lexer.kind_eof _, rfl⟩
    have hrest : (State.ofLexer { source, file }).rest = d.tokens := by
      rw [htokens]
      exact List.dropLast_concat.symm
    obtain ⟨token, ⟨leftmost, others, hexpressions, hhead⟩, hreports⟩ :=
      State.takeExpression_of_curtailed hintact hrest hadmissible hdepth
    refine ⟨leftmost, others, token, hexpressions, hhead, ?_⟩
    have hdiagnostics : (Reading.ofSource source file).diagnostics =
        (State.ofLexer { source, file }).takeExpression.2.expectEnd.reports.reverse := rfl
    rw [hdiagnostics, hreports, ← Message.tooDeep_eq]
    rfl
  · have hdiagnostics : parser.takeExpression.2.diagnostics =
        parser.state.takeExpression.2.reports.reverse := rfl
    cases curtailed_takeExpression parser with
    | reading new split other abandoned =>
      refine ⟨new.reverse, ?_, ?_, fun d hd hnesting => ?_⟩
      · rw [hdiagnostics, split, List.reverse_append, List.reverse_reverse]
      · rw [List.filter_eq_nil_iff.mpr (by simpa using other)]
        exact Nat.zero_le _
      · rw [other d (List.mem_reverse.mp hd)] at hnesting
        cases hnesting
    | givenUp new limit split other abandoned rest =>
      have hover := over_of_abandoned abandoned
      have hnone : new.reverse.filter Diagnostic.isNesting = [] :=
        List.filter_eq_nil_iff.mpr (by simpa using other)
      refine ⟨new.reverse ++ [misplaced Message.tooDeep limit], ?_, ?_, fun d hd hnesting => ?_⟩
      · rw [hdiagnostics, split]
        simp
      · rw [List.filter_append, hnone, List.nil_append]
        exact List.length_filter_le _ _
      · have hlast : d = misplaced Message.tooDeep limit := by
          rcases List.mem_append.mp hd with hd | hd
          · rw [other d (List.mem_reverse.mp hd)] at hnesting
            cases hnesting
          · exact List.mem_singleton.mp hd
        obtain ⟨hended, hquiet⟩ := hover.expectEnd
        refine ⟨?_, hover.isAtEnd, hquiet, hended.isAtEnd⟩
        rw [hlast, List.getLast?_concat]

-- A digit in so many parentheses, the first of which stands behind `before` others.
def Grammar.Derivation.digitInside (before : Nat) : Nat → Derivation (.one .expression)
  | 0 =>
    .comparison (.chain (.chain (.chain (.literal (.integer
      ⟨.number, ⟨1, before + 1, before, 1, "f"⟩, some "1"⟩ rfl)) .nothing) .nothing) .nothing)
  | levels + 1 =>
    let last := before + 2 * levels + 2
    .comparison (.chain (.chain (.chain (.group ⟨.leftParen, ⟨1, before + 1, before, 1, "f"⟩, none⟩
      (digitInside (before + 1) levels) ⟨.rightParen, ⟨1, last + 1, last, 1, "f"⟩, none⟩ rfl rfl)
        .nothing) .nothing) .nothing)

namespace Grammar.Derivation

theorem admissible_digitInside (before levels : Nat) : (digitInside before levels).Admissible := by
  induction levels generalizing before with
  | zero => exact ⟨⟨⟨(by decide : "1".length ≤ 4300), trivial⟩, trivial⟩, trivial⟩
  | succ levels ih => exact ⟨⟨⟨ih (before + 1), trivial⟩, trivial⟩, trivial⟩

theorem depth_digitInside (before levels : Nat) :
    (digitInside before levels).depth = levels + 1 := by
  induction levels generalizing before with
  | zero => rfl
  | succ levels ih => simp [digitInside, depth, ih]

theorem expressionsAt_digitInside (before levels : Nat) :
    (digitInside before levels).expressionsAt (levels + 1) = [digitInside (before + levels) 0] := by
  induction levels generalizing before with
  | zero => rfl
  | succ levels ih =>
    have hinner := ih (before + 1)
    rw [Nat.add_right_comm] at hinner
    simp only [digitInside, expressionsAt, levelled, List.append_nil] at hinner ⊢
    exact hinner

-- `rest` is what stands behind the last parenthesis.
theorem tiles_digitInside (before levels : Nat) {rest : List Char} {tokens : List Token}
    {eof : Token} (hrest : ∀ c ∈ rest.head?, c.isDigit = false)
    (h : Tiles "f" ⟨1, before + 2 * levels + 2, before + 2 * levels + 1⟩ rest tokens eof) :
    Tiles "f" ⟨1, before + 1, before⟩
      (List.replicate levels '(' ++ '1' :: (List.replicate levels ')' ++ rest))
      ((digitInside before levels).tokens ++ tokens) eof := by
  induction levels generalizing before rest tokens with
  | zero =>
    have hone : Spells .number ['1'] := .number (by simp) (List.forall_mem_singleton.mpr rfl)
    have hdigit : Munch ⟨.number, ['1']⟩ ('1' :: rest) rest := ⟨hone, rfl, hrest⟩
    exact .at_once hdigit h
  | succ levels ih =>
    have hopening : Munch ⟨.leftParen, ['(']⟩
        ('(' :: (List.replicate levels '(' ++ '1' :: (List.replicate levels ')' ++ ')' :: rest)))
        (List.replicate levels '(' ++ '1' :: (List.replicate levels ')' ++ ')' :: rest)) :=
      ⟨.operator rfl rfl, rfl, fun _ _ => rfl⟩
    have hclosing : Munch ⟨.rightParen, [')']⟩ (')' :: rest) rest :=
      ⟨.operator rfl rfl, rfl, fun _ _ => rfl⟩
    have hoffset : before + 1 + 2 * levels + 1 = before + 2 * levels + 2 := by omega
    have hcolumn : before + 1 + 2 * levels + 2 = before + 2 * levels + 2 + 1 := by omega
    have hnext : before + 2 * (levels + 1) = before + 2 * levels + 2 := by omega
    let closing : Token :=
      (⟨.rightParen, [')']⟩ : Lexeme).token
        ⟨1, before + 2 * levels + 2 + 1, before + 2 * levels + 2⟩ "f"
    have hbehind : Tiles "f" ⟨1, before + 1 + 2 * levels + 2, before + 1 + 2 * levels + 1⟩
        (')' :: rest) (closing :: tokens) eof := by
      rw [hoffset, hcolumn]
      rw [hnext] at h
      exact .at_once hclosing h
    have hinner := ih (before + 1) (by simp) hbehind
    have htokens : (digitInside before (levels + 1)).tokens ++ tokens =
        (⟨.leftParen, ['(']⟩ : Lexeme).token ⟨1, before + 1, before⟩ "f" ::
          ((digitInside (before + 1) levels).tokens ++ closing :: tokens) := by
      simp [digitInside, Derivation.tokens, closing, Lexeme.token, Cursor.span, Kind.varies]
    rw [List.replicate_succ, List.replicate_succ', List.append_assoc, List.singleton_append,
      htokens]
    exact .at_once hopening hinner

end Grammar.Derivation

-- A digit in so many pairs of parentheses.
def digitInParentheses (levels : Nat) : Source :=
  .text (List.replicate levels '(' ++ '1' :: List.replicate levels ')')

theorem tokens_digitInParentheses (levels : Nat) : (Derivation.digitInside 0 levels).tokens =
    ({ source := digitInParentheses levels, file := "f" } : Lexer).tokenize.1.dropLast := by
  have htiles := Derivation.tiles_digitInside 0 levels (by simp) (.nil "f" _)
  rw [List.append_nil, List.append_nil] at htiles
  rw [Lexer.tokenize, List.dropLast_concat]
  symm
  exact (Lexer.drain_of_tiles { source := digitInParentheses levels, file := "f" } rfl htiles).1

-- In 64 pairs of them it is at the first level too many.
theorem digit_nested_too_deeply :
    (Reading.ofSource (digitInParentheses 64) "f").diagnostics =
      [⟨.syntactic, "Expression is nested more than 64 levels deep",
        some ⟨1, 65, 64, 1, "f"⟩⟩] := by
  obtain ⟨leftmost, others, token, hexpressions, hhead, hdiagnostics⟩ :=
    (nesting_reported_once (digitInParentheses 64) "f" default).1 (.digitInside 0 64)
      (tokens_digitInParentheses 64) (Derivation.admissible_digitInside 0 64)
      (by rw [Derivation.depth_digitInside]; decide)
  rw [Derivation.expressionsAt_digitInside, List.cons.injEq] at hexpressions
  rw [← hexpressions.1] at hhead
  cases hhead
  exact hdiagnostics

end Calculator
