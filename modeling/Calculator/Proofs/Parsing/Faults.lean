import Calculator.Proofs.Parsing.Nesting

namespace Calculator.Parser

open Grammar

-- A state behind some tokens, with one more problem reported, which is one of syntax.
structure Resumes (state after : State) (behind : List Token) (d : Diagnostic) : Prop where
  eof : after.eof = state.eof
  rest : after.rest = behind
  reports : after.reports = d :: state.reports
  abandoned : after.abandoned = state.abandoned
  syntactic : d.kind = .syntactic

namespace Resumes

variable {first second third : State} {behind behind' : List Token} {d : Diagnostic}

theorem passes (h : Resumes first second behind d) (h' : Passes second third behind') :
    Resumes first third behind' d :=
  ⟨h'.eof.trans h.eof, h'.rest, h'.reports.trans h.reports, h'.abandoned.trans h.abandoned,
    h.syntactic⟩

theorem of_passes (h : Passes first second behind) (h' : Resumes second third behind' d) :
    Resumes first third behind' d :=
  ⟨h'.eof.trans h.eof, h'.rest, h'.reports.trans (by rw [h.reports]),
    h'.abandoned.trans h.abandoned, h'.syntactic⟩

theorem intact (h : Resumes first second behind d) (hfirst : first.Intact) : second.Intact :=
  ⟨h.eof ▸ hfirst.eof, h.abandoned.trans hfirst.abandoned⟩

end Resumes

theorem State.next_kind_ne {state : State} {kind : Kind} (heof : state.eof.kind = .eof)
    (hnext : ∀ token ∈ state.rest.head?, token.kind ≠ kind) (hend : kind ≠ .eof) :
    state.next.kind ≠ kind := by
  cases hrest : state.rest with
  | nil =>
    have hkind : state.next.kind = .eof := by simp [next, hrest, heof]
    exact hkind ▸ hend.symm
  | cons token rest => exact next_of_rest hrest ▸ hnext token (by simp [hrest])

-- A wanted token that is missing is reported where the next one stands.
theorem State.expect_missing {state : State} {behind : List Token} (kind : Kind) (what : String)
    (hstate : state.Intact) (hrest : state.rest = behind)
    (hnext : ∀ token ∈ behind.head?, token.kind ≠ .invalid ∧ token.kind ≠ kind)
    (hend : kind ≠ .eof) :
    ∃ d after, state.expect kind what = (.empty, after) ∧ Resumes state after behind d ∧
      d.span = some state.next.span := by
  subst hrest
  have hkind := next_kind_ne hstate.eof (fun token htoken => (hnext token htoken).2) hend
  have hskip : state.skipInvalid = state.look := by
    apply skipInvalid_of_rest
    cases hrest : state.rest with
    | nil => rfl
    | cons token rest => simp [(hnext token (by simp [hrest])).1]
  refine ⟨misplaced (Message.expected what state.next) state.next,
    state.look.complain (Message.expected what state.next) state.next, ?_, ?_, rfl⟩
  · have hlook : state.look.next = state.next := rfl
    rw [expect, hskip]
    simp only [hlook, hkind, if_false]
  · have hleads := LeadsTo.complain (Message.expected what state.next) state.next state.look
    refine ⟨hleads.eof, ?_, State.reports_complain _ _ hstate.abandoned, ?_, rfl⟩
    · simp [complain, look, hstate.abandoned, report]
    · simp [complain, look, hstate.abandoned, report]

-- That the rule of a symbol reads the tokens in front of `behind` with one report, of which
-- `repairs` holds together with what is read. It may be given up only if `deep`.
def Falters (levels : Nat) (symbol : Symbol) (tokens behind : List Token)
    (repairs : Meaning symbol → Diagnostic → Prop) (deep : Prop) : Prop :=
  ∀ state : State, state.Intact → state.rest = tokens ++ behind →
    (∃ meaning d after, Makes levels symbol state meaning after ∧ repairs meaning d ∧
      Resumes state after behind d) ∨
    deep ∧ ∃ token, Leaves levels symbol state (GivesUp state token)

namespace Falters

variable {levels : Nat} {tokens behind : List Token} {deep : Prop}

theorem binding {letToken name equals : Token} {repairs repairs' : Expression → Diagnostic → Prop}
    (isLet : letToken.kind = .letWord) (isName : name.kind = .identifier)
    (isEquals : equals.kind = .equals)
    (hbody : Falters levels (.one .expression) tokens behind repairs deep)
    (hrepairs : ∀ body d, repairs body d →
      repairs' (.binding letToken name (name.text.getD "") equals body) d) :
    Falters (levels + 1) (.one .expression) (letToken :: name :: equals :: tokens) behind repairs'
      deep := by
  intro state hstate hrest
  have hlet := Passes.advance hrest
  have hname := Passes.advance hlet.rest
  have hequals := Passes.advance hname.rest
  have hpasses := (hlet.trans hname).trans hequals
  have hkind : state.next.kind = .letWord := State.next_of_rest hrest ▸ isLet
  simp only [Makes, Leaves, Rule.of, Rule.expression, hkind, Rule.binding]
  rw [State.expect_of_rest _ hlet.rest isName (by decide),
    State.expect_of_rest _ hname.rest isEquals (by decide), State.next_of_rest hrest]
  rcases hbody _ (hpasses.intact hstate) hpasses.rest with
    ⟨body, d, after, hmakes, hd, hresumes⟩ | ⟨hdeep, token, hgives⟩
  · simp only [Makes, Rule.of] at hmakes
    exact .inl ⟨_, d, after, by rw [hmakes], hrepairs body d hd, .of_passes hpasses hresumes⟩
  · exact .inr ⟨hdeep, token, hgives.of_passes hpasses⟩

theorem comparison {repairs : Expression → Diagnostic → Prop}
    (hbegins : ∃ token rest, tokens = token :: rest ∧
      (Nonterminal.chain .comparison).begins token.kind = true)
    (hoperands : Falters levels (.one (.chain .comparison)) tokens behind repairs deep) :
    Falters (levels + 1) (.one .expression) tokens behind repairs deep := by
  intro state hstate hrest
  obtain ⟨token, rest, rfl, htoken⟩ := hbegins
  have hcomparison : Rule.of (levels + 1) .expression state =
      Rule.of levels (.chain .comparison) state :=
    Rule.expression_of_begins levels (State.next_of_rest hrest ▸ htoken)
  have hread := hoperands state hstate hrest
  simp only [Makes, Leaves] at hread ⊢
  rwa [hcomparison]

theorem first {level : Level} {repairs repairs' : Expression → Diagnostic → Prop}
    {rest : Derivation (.many level)} (hadmissible : rest.Admissible) (hdepth : rest.depth ≤ levels)
    (hends : (Symbol.many level).Ends behind)
    (hfirst : Falters levels (.one level.operand) tokens (rest.tokens ++ behind) repairs deep)
    (hrepairs : ∀ first d, repairs first d → repairs' (List.foldl
      (fun left step => Expression.binary left step.1 step.2) first rest.tree) d) :
    Falters levels (.one (.chain level)) (tokens ++ rest.tokens) behind repairs' deep := by
  intro state hstate hrest
  rw [List.append_assoc] at hrest
  simp only [Makes, Leaves]
  rw [Rule.of_chain, Rule.chain]
  rcases hfirst state hstate hrest with
    ⟨first, d, middle, hmakes, hd, hresumes⟩ | ⟨hdeep, token, hgives⟩
  · have hmiddle := hresumes.intact hstate
    obtain ⟨after, hsteps, hpasses⟩ :=
      rest.isRead hadmissible levels middle behind hdepth hmiddle.eof hresumes.rest hends
    simp only [Makes] at hmakes
    refine .inl ⟨_, d, after, ?_, hrepairs first d hd, hresumes.passes hpasses⟩
    rw [hmakes]
    exact hsteps _ _ (Nat.lt_succ_self _)
  · have heof : (Rule.of levels level.operand state).2.eof.kind = .eof := hgives.eof ▸ hstate.eof
    exact .inr ⟨hdeep, token, hgives.moves hstate.eof
      (Rule.operators_moves levels level _ _ heof (Nat.lt_succ_self _))⟩

theorem rest {level : Level} {repairs : List (Token × Expression) → Diagnostic → Prop}
    {repairs' : Expression → Diagnostic → Prop} {first : Derivation (.one level.operand)}
    (hadmissible : first.Admissible) (hdepth : first.depth ≤ levels)
    (hends : (Symbol.one level.operand).Ends (tokens ++ behind))
    (hrest : Falters levels (.many level) tokens behind repairs deep)
    (hrepairs : ∀ steps d, repairs steps d → repairs' (List.foldl
      (fun left step => Expression.binary left step.1 step.2) first.tree steps) d) :
    Falters levels (.one (.chain level)) (first.tokens ++ tokens) behind repairs' deep := by
  intro state hstate htokens
  rw [List.append_assoc] at htokens
  simp only [Makes, Leaves]
  rw [Rule.of_chain, Rule.chain]
  obtain ⟨middle, hmakes, hpasses⟩ :=
    first.isRead hadmissible levels state _ hdepth hstate.eof htokens hends
  simp only [Makes] at hmakes
  rw [hmakes]
  rcases hrest middle (hpasses.intact hstate) hpasses.rest with
    ⟨steps, d, after, hsteps, hd, hresumes⟩ | ⟨hdeep, token, hgives⟩
  · exact .inl ⟨_, d, after, hsteps _ _ (Nat.lt_succ_self _), hrepairs steps d hd,
      .of_passes hpasses hresumes⟩
  · exact .inr ⟨hdeep, token, (hgives _ _ (Nat.lt_succ_self _)).of_passes hpasses⟩

theorem operand {level : Level} {operator : Token} {repairs : Expression → Diagnostic → Prop}
    {repairs' : List (Token × Expression) → Diagnostic → Prop} {rest : Derivation (.many level)}
    (isOperator : level.holds operator.kind = true) (hadmissible : rest.Admissible)
    (hdepth : rest.depth ≤ levels) (hends : (Symbol.many level).Ends behind)
    (hoperand : Falters levels (.one level.operand) tokens (rest.tokens ++ behind) repairs deep)
    (hrepairs : ∀ operand d, repairs operand d → repairs' ((operator, operand) :: rest.tree) d) :
    Falters levels (.many level) (operator :: (tokens ++ rest.tokens)) behind repairs' deep := by
  intro state hstate htokens
  simp only [List.cons_append, List.append_assoc] at htokens
  have hoperator := Passes.advance htokens
  have hlength := congrArg List.length htokens
  simp only [List.length_cons, List.length_append] at hlength
  rcases hoperand _ hstate.advance hoperator.rest with
    ⟨operand, d, middle, hmakes, hd, hresumes⟩ | ⟨hdeep, token, hgives⟩
  · have hread := Resumes.of_passes hoperator hresumes
    obtain ⟨after, hsteps, hpasses⟩ := rest.isRead hadmissible levels middle behind hdepth
      (hread.intact hstate).eof hresumes.rest hends
    refine .inl ⟨_, d, after, fun left fuel hfuel => ?_, hrepairs operand d hd,
      hread.passes hpasses⟩
    simp only [Makes] at hmakes
    cases fuel with
    | zero => cases hfuel
    | succ fuel =>
      rw [Rule.operators, State.next_of_rest htokens, isOperator, if_pos rfl, hmakes]
      apply hsteps
      rw [hresumes.rest, List.length_append]
      omega
  · refine .inr ⟨hdeep, token, fun left fuel hfuel => ?_⟩
    cases fuel with
    | zero => cases hfuel
    | succ fuel =>
      rw [Rule.operators, State.next_of_rest htokens, isOperator, if_pos rfl]
      simp only [Leaves] at hgives
      have heof := hgives.eof ▸ hstate.advance.eof
      refine hgives.moves hstate.advance.eof (Rule.operators_moves levels level _ _ heof ?_)
      rw [hgives.rest, List.length_nil]
      omega

theorem more {level : Level} {operator : Token}
    {repairs repairs' : List (Token × Expression) → Diagnostic → Prop}
    {operand : Derivation (.one level.operand)} (isOperator : level.holds operator.kind = true)
    (hadmissible : operand.Admissible) (hdepth : operand.depth ≤ levels)
    (hends : (Symbol.one level.operand).Ends (tokens ++ behind))
    (hrest : Falters levels (.many level) tokens behind repairs deep)
    (hrepairs : ∀ steps d, repairs steps d → repairs' ((operator, operand.tree) :: steps) d) :
    Falters levels (.many level) (operator :: (operand.tokens ++ tokens)) behind repairs' deep := by
  intro state hstate htokens
  simp only [List.cons_append, List.append_assoc] at htokens
  have hoperator := Passes.advance htokens
  have hlength := congrArg List.length htokens
  simp only [List.length_cons, List.length_append] at hlength
  obtain ⟨middle, hmakes, hpasses⟩ := operand.isRead hadmissible levels state.advance _ hdepth
    hstate.advance.eof hoperator.rest hends
  simp only [Makes] at hmakes
  have hread := hoperator.trans hpasses
  have hmiddle : middle.rest.length + operand.tokens.length + 1 = state.rest.length := by
    rw [hpasses.rest, List.length_append]
    omega
  rcases hrest middle (hread.intact hstate) hread.rest with
    ⟨steps, d, after, hsteps, hd, hresumes⟩ | ⟨hdeep, token, hgives⟩
  · refine .inl ⟨_, d, after, fun left fuel hfuel => ?_, hrepairs steps d hd,
      .of_passes hread hresumes⟩
    cases fuel with
    | zero => cases hfuel
    | succ fuel =>
      rw [Rule.operators, State.next_of_rest htokens, isOperator, if_pos rfl, hmakes]
      exact hsteps _ _ (by omega)
  · refine .inr ⟨hdeep, token, fun left fuel hfuel => ?_⟩
    cases fuel with
    | zero => cases hfuel
    | succ fuel =>
      rw [Rule.operators, State.next_of_rest htokens, isOperator, if_pos rfl, hmakes]
      exact (hgives _ _ (by omega)).of_passes hread

theorem only {level : Level} {repairs : Expression → Diagnostic → Prop}
    (hends : (Symbol.many level).Ends behind)
    (hfirst : Falters levels (.one level.operand) tokens behind repairs deep) :
    Falters levels (.one (.chain level)) tokens behind repairs deep := by
  have hchain : Falters levels (.one (.chain level))
      (tokens ++ (Derivation.nothing : Derivation (.many level)).tokens) behind repairs deep :=
    first trivial (Nat.zero_le _) hends hfirst fun _ _ hd => hd
  rwa [Derivation.tokens, List.append_nil] at hchain

theorem last {level : Level} {operator : Token} {repairs : Expression → Diagnostic → Prop}
    {repairs' : List (Token × Expression) → Diagnostic → Prop}
    (isOperator : level.holds operator.kind = true) (hends : (Symbol.many level).Ends behind)
    (hoperand : Falters levels (.one level.operand) tokens behind repairs deep)
    (hrepairs : ∀ operand d, repairs operand d → repairs' [(operator, operand)] d) :
    Falters levels (.many level) (operator :: tokens) behind repairs' deep := by
  have hmore : Falters levels (.many level)
      (operator :: (tokens ++ (Derivation.nothing : Derivation (.many level)).tokens)) behind
      repairs' deep := operand isOperator trivial (Nat.zero_le _) hends hoperand hrepairs
  rwa [Derivation.tokens, List.append_nil] at hmore

theorem group {left right : Token} {repairs : Expression → Diagnostic → Prop}
    (isLeft : left.kind = .leftParen) (isRight : right.kind = .rightParen)
    (hinner : Falters levels (.one .expression) tokens (right :: behind) repairs deep) :
    Falters levels (.one .primary) (left :: (tokens ++ [right])) behind repairs deep := by
  intro state hstate hrest
  simp only [List.cons_append, List.append_assoc, List.nil_append] at hrest
  have hleft := Passes.advance hrest
  have hkind : state.next.kind = .leftParen := State.next_of_rest hrest ▸ isLeft
  simp only [Makes, Leaves, Rule.of, Rule.primary, hkind, Rule.parenthesized]
  rcases hinner _ hstate.advance hleft.rest with
    ⟨inner, d, after, hmakes, hd, hresumes⟩ | ⟨hdeep, token, hgives⟩
  · simp only [Makes, Rule.of] at hmakes
    rw [hmakes, State.expect_of_rest _ hresumes.rest isRight (by decide)]
    exact .inl ⟨inner, d, _, rfl, hd,
      (Resumes.of_passes hleft hresumes).passes (.advance hresumes.rest)⟩
  · exact .inr ⟨hdeep, token, (hgives.of_passes hleft).moves hstate.eof
      (State.moves_expect (by decide) rfl)⟩

end Falters

-- What a conditional does behind its first branch.
def Rule.finish (levels : Nat) (ifToken : Token) (condition : Expression) (thenToken : Token)
    (body : Expression) : Rule := fun state =>
  if state.next.kind = .elseWord then
    let otherwise := expression levels state.advance
    let endToken := otherwise.2.expect .endWord "'end'"
    (.ifThenElse ifToken condition thenToken body state.next otherwise.1 endToken.1, endToken.2)
  else
    let endToken := state.expect .endWord "'end'"
    (.ifThen ifToken condition thenToken body endToken.1 .empty, endToken.2)

namespace Rule

variable {levels : Nat} {ifToken thenToken : Token} {condition body : Expression} {state : State}

theorem conditional_eq_finish {afterCondition afterThen afterBody : State}
    (hcondition : expression levels state.advance = (condition, afterCondition))
    (hthen : afterCondition.expect .thenWord "'then'" = (thenToken, afterThen))
    (hbody : expression levels afterThen = (body, afterBody)) :
    conditional (expression levels) state =
      finish levels state.next condition thenToken body afterBody := by
  unfold conditional finish
  rw [hcondition]
  dsimp only
  rw [hthen]
  dsimp only
  rw [hbody]

theorem finish_of_no_else (h : state.next.kind ≠ .elseWord) :
    finish levels ifToken condition thenToken body state =
      (.ifThen ifToken condition thenToken body (state.expect .endWord "'end'").1 .empty,
        (state.expect .endWord "'end'").2) :=
  if_neg h

theorem finish_of_else {elseToken : Token} {behind : List Token} {otherwise : Expression}
    {after : State} (hrest : state.rest = elseToken :: behind) (isElse : elseToken.kind = .elseWord)
    (hotherwise : expression levels state.advance = (otherwise, after)) :
    finish levels ifToken condition thenToken body state =
      (.ifThenElse ifToken condition thenToken body elseToken otherwise
        (after.expect .endWord "'end'").1, (after.expect .endWord "'end'").2) := by
  have hkind : state.next.kind = .elseWord := State.next_of_rest hrest ▸ isElse
  unfold finish
  rw [if_pos hkind, hotherwise, State.next_of_rest hrest]

theorem finish_end {endToken : Token} {behind : List Token}
    (hrest : state.rest = endToken :: behind) (isEnd : endToken.kind = .endWord) :
    finish levels ifToken condition thenToken body state =
      (.ifThen ifToken condition thenToken body endToken .empty, state.advance) := by
  have hkind : state.next.kind ≠ .elseWord := by
    rw [State.next_of_rest hrest, isEnd]
    decide
  rw [finish_of_no_else hkind, State.expect_of_rest _ hrest isEnd (by decide)]

theorem finish_else {elseToken endToken : Token} {behind : List Token}
    {otherwise : Derivation (.one .expression)} (hstate : state.Intact)
    (hrest : state.rest = elseToken :: (otherwise.tokens ++ endToken :: behind))
    (isElse : elseToken.kind = .elseWord) (isEnd : endToken.kind = .endWord)
    (hadmissible : otherwise.Admissible) (hdepth : otherwise.depth ≤ levels) :
    ∃ after, finish levels ifToken condition thenToken body state =
        (.ifThenElse ifToken condition thenToken body elseToken otherwise.tree endToken, after) ∧
      Passes state after behind := by
  have helse := Passes.advance hrest
  obtain ⟨middle, hmakes, hpasses⟩ := otherwise.isRead.closed hadmissible hdepth
    (helse.ended hstate.eof) helse.rest (Symbol.closes_of_kind isEnd rfl)
  refine ⟨middle.advance, ?_, (helse.trans hpasses).trans (.advance hpasses.rest)⟩
  rw [finish_of_else hrest isElse hmakes, State.expect_of_rest _ hpasses.rest isEnd (by decide)]

end Rule

-- That a condition with its branch is read with one report.
def BranchFalters (levels : Nat) (tokens behind : List Token)
    (repairs : Expression → Token → Expression → Diagnostic → Prop) (deep : Prop) : Prop :=
  ∀ state : State, state.Intact → state.advance.rest = tokens ++ behind →
    (∃ condition thenToken body d after,
      Rule.conditional (Rule.expression levels) state =
        Rule.finish levels state.next condition thenToken body after ∧
      repairs condition thenToken body d ∧ Resumes state after behind d) ∨
    deep ∧ ∃ token, GivesUp state token (Rule.conditional (Rule.expression levels) state).2

namespace BranchFalters

variable {levels : Nat} {tokens behind : List Token} {deep : Prop}
  {repairs : Expression → Diagnostic → Prop}
  {repairs' : Expression → Token → Expression → Diagnostic → Prop}

theorem condition {thenToken : Token} {body : Derivation (.one .expression)}
    (isThen : thenToken.kind = .thenWord) (hadmissible : body.Admissible)
    (hdepth : body.depth ≤ levels) (hends : (Symbol.one .expression).Ends behind)
    (hcondition : Falters levels (.one .expression) tokens (thenToken :: (body.tokens ++ behind))
      repairs deep)
    (hrepairs : ∀ condition d, repairs condition d → repairs' condition thenToken body.tree d) :
    BranchFalters levels (tokens ++ thenToken :: body.tokens) behind repairs' deep := by
  intro state hstate hrest
  rw [List.append_assoc, List.cons_append] at hrest
  have hadvance : Passes state state.advance state.advance.rest := ⟨rfl, rfl, rfl, rfl⟩
  rcases hcondition _ hstate.advance hrest with
    ⟨condition, d, middle, hmakes, hd, hresumes⟩ | ⟨hdeep, token, hgives⟩
  · have hread := (Resumes.of_passes hadvance hresumes).passes (.advance hresumes.rest)
    obtain ⟨after, hbody, hpasses⟩ := body.isRead hadmissible levels middle.advance behind hdepth
      (hread.intact hstate).eof hread.rest hends
    exact .inl ⟨condition, thenToken, body.tree, d, after, Rule.conditional_eq_finish hmakes
      (State.expect_of_rest _ hresumes.rest isThen (by decide)) hbody, hrepairs condition d hd,
      hread.passes hpasses⟩
  · exact .inr ⟨hdeep, token, (hgives.of_passes hadvance).moves hstate.eof
      (Rule.conditional_moves_condition levels hstate.eof)⟩

theorem body {condition : Derivation (.one .expression)} {thenToken : Token}
    (isThen : thenToken.kind = .thenWord) (hadmissible : condition.Admissible)
    (hdepth : condition.depth ≤ levels)
    (hbody : Falters levels (.one .expression) tokens behind repairs deep)
    (hrepairs : ∀ body d, repairs body d → repairs' condition.tree thenToken body d) :
    BranchFalters levels (condition.tokens ++ thenToken :: tokens) behind repairs' deep := by
  intro state hstate hrest
  rw [List.append_assoc, List.cons_append] at hrest
  have hadvance : Passes state state.advance state.advance.rest := ⟨rfl, rfl, rfl, rfl⟩
  obtain ⟨middle, hmakes, hpasses⟩ := condition.isRead.closed hadmissible hdepth
    hstate.advance.eof hrest (Symbol.closes_of_kind isThen rfl)
  have hthen := State.expect_of_rest "'then'" hpasses.rest isThen (by decide)
  have hread := (hadvance.trans hpasses).trans (.advance hpasses.rest)
  rcases hbody _ (hread.intact hstate) hread.rest with
    ⟨body, d, after, hbody, hd, hresumes⟩ | ⟨hdeep, token, hgives⟩
  · exact .inl ⟨condition.tree, thenToken, body, d, after,
      Rule.conditional_eq_finish hmakes hthen hbody, hrepairs body d hd,
      .of_passes hread hresumes⟩
  · have hmoves := Rule.conditional_moves_body levels hstate.eof
    simp only [Makes, Rule.of] at hmakes
    rw [hmakes, hthen] at hmoves
    exact .inr ⟨hdeep, token, (hgives.of_passes hread).moves hstate.eof hmoves⟩

end BranchFalters

namespace Falters

variable {levels : Nat} {tokens behind : List Token} {deep : Prop}
  {repairs : Expression → Diagnostic → Prop}

theorem ifThen {ifToken endToken : Token} (isIf : ifToken.kind = .ifWord)
    (isEnd : endToken.kind = .endWord)
    (hbranch : BranchFalters levels tokens (endToken :: behind) (fun condition thenToken body =>
      repairs (.ifThen ifToken condition thenToken body endToken .empty)) deep) :
    Falters (levels + 1) (.one .expression) (ifToken :: (tokens ++ [endToken])) behind repairs
      deep := by
  intro state hstate hrest
  simp only [List.cons_append, List.append_assoc, List.nil_append] at hrest
  have hif := Passes.advance hrest
  have hkind : state.next.kind = .ifWord := State.next_of_rest hrest ▸ isIf
  simp only [Makes, Leaves, Rule.of, Rule.expression, hkind]
  rcases hbranch state hstate hif.rest with
    ⟨condition, thenToken, body, d, after, hfinish, hd, hresumes⟩ | hgives
  · rw [hfinish, Rule.finish_end hresumes.rest isEnd, State.next_of_rest hrest]
    exact .inl ⟨_, d, _, rfl, hd, hresumes.passes (.advance hresumes.rest)⟩
  · exact .inr hgives

theorem ifThenElse {ifToken elseToken endToken : Token} {otherwise : Derivation (.one .expression)}
    (isIf : ifToken.kind = .ifWord) (isElse : elseToken.kind = .elseWord)
    (isEnd : endToken.kind = .endWord) (hadmissible : otherwise.Admissible)
    (hdepth : otherwise.depth ≤ levels)
    (hbranch : BranchFalters levels tokens (elseToken :: (otherwise.tokens ++ endToken :: behind))
      (fun condition thenToken body => repairs
        (.ifThenElse ifToken condition thenToken body elseToken otherwise.tree endToken)) deep) :
    Falters (levels + 1) (.one .expression)
      (ifToken :: (tokens ++ elseToken :: (otherwise.tokens ++ [endToken]))) behind repairs
      deep := by
  intro state hstate hrest
  simp only [List.cons_append, List.append_assoc, List.nil_append] at hrest
  have hif := Passes.advance hrest
  have hkind : state.next.kind = .ifWord := State.next_of_rest hrest ▸ isIf
  simp only [Makes, Leaves, Rule.of, Rule.expression, hkind]
  rcases hbranch state hstate hif.rest with
    ⟨condition, thenToken, body, d, middle, hfinish, hd, hresumes⟩ | hgives
  · obtain ⟨after, hafter, hpasses⟩ := Rule.finish_else (hresumes.intact hstate) hresumes.rest
      isElse isEnd hadmissible hdepth
    rw [hfinish, hafter, State.next_of_rest hrest]
    exact .inl ⟨_, d, after, rfl, hd, hresumes.passes hpasses⟩
  · exact .inr hgives

theorem otherwise {ifToken thenToken elseToken endToken : Token}
    {condition body : Derivation (.one .expression)} {repairs' : Expression → Diagnostic → Prop}
    (isIf : ifToken.kind = .ifWord) (isThen : thenToken.kind = .thenWord)
    (isElse : elseToken.kind = .elseWord) (isEnd : endToken.kind = .endWord)
    (hcondition : condition.Admissible) (hbody : body.Admissible)
    (hdepth : max condition.depth body.depth ≤ levels)
    (hotherwise : Falters levels (.one .expression) tokens (endToken :: behind) repairs deep)
    (hrepairs : ∀ otherwise d, repairs otherwise d → repairs'
      (.ifThenElse ifToken condition.tree thenToken body.tree elseToken otherwise endToken) d) :
    Falters (levels + 1) (.one .expression) (ifToken ::
      (condition.tokens ++ thenToken :: (body.tokens ++ elseToken :: (tokens ++ [endToken]))))
      behind repairs' deep := by
  intro state hstate hrest
  simp only [List.cons_append, List.append_assoc, List.nil_append] at hrest
  have hif := Passes.advance hrest
  have hkind : state.next.kind = .ifWord := State.next_of_rest hrest ▸ isIf
  simp only [Makes, Leaves, Rule.of, Rule.expression, hkind]
  obtain ⟨afterCondition, afterBody, hcondition, hthen, hbody, hpasses⟩ :=
    Derivation.IsRead.branch condition.isRead body.isRead isThen hcondition hbody hdepth
      hstate.advance.eof hif.rest (Symbol.ends_of_closes (Symbol.closes_of_kind isElse rfl))
  have helse := (hif.trans hpasses).trans (.advance hpasses.rest)
  rw [Rule.conditional_eq_finish hcondition hthen hbody, State.next_of_rest hrest]
  rcases hotherwise _ (helse.intact hstate) helse.rest with
    ⟨otherwise, d, after, hmakes, hd, hresumes⟩ | ⟨hdeep, token, hgives⟩
  · rw [Rule.finish_of_else hpasses.rest isElse hmakes,
      State.expect_of_rest _ hresumes.rest isEnd (by decide)]
    exact .inl ⟨_, d, _, rfl, hrepairs otherwise d hd,
      (Resumes.of_passes helse hresumes).passes (.advance hresumes.rest)⟩
  · rw [Rule.finish_of_else hpasses.rest isElse rfl]
    exact .inr ⟨hdeep, token, (hgives.of_passes helse).moves hstate.eof
      (State.moves_expect (by decide) rfl)⟩

end Falters

-- What begins an expression stands for no token in front of one, and extends none.
theorem Nonterminal.not_wanted_of_begins {kind : Kind}
    (h : Nonterminal.expression.begins kind = true) :
    kind ≠ .invalid ∧ kind ≠ .equals ∧ kind ≠ .thenWord ∧
      (Symbol.one .expression).extendedBy kind = false := by
  cases kind <;> revert h <;> decide

-- An opening token that is missing is reported where the next one stands, and no more than that.
namespace Falters

variable {levels : Nat} {behind : List Token} {deep : Prop} {body : Derivation (.one .expression)}
  {repairs : Expression → Diagnostic → Prop}

theorem missingName {letToken equals : Token} (isLet : letToken.kind = .letWord)
    (isEquals : equals.kind = .equals) (hadmissible : body.Admissible)
    (hdepth : body.depth ≤ levels) (hends : (Symbol.one .expression).Ends behind)
    (hrepairs : ∀ d : Diagnostic, d.span = some equals.span →
      repairs (.binding letToken .empty "" equals body.tree) d) :
    Falters (levels + 1) (.one .expression) (letToken :: equals :: body.tokens) behind repairs
      deep := by
  intro state hstate hrest
  have hlet := Passes.advance hrest
  obtain ⟨d, middle, hname, hresumes, hspan⟩ := State.expect_missing .identifier
    "identifier after 'let'" hstate.advance hlet.rest (by simp [isEquals]) (by decide)
  rw [State.next_of_rest hlet.rest] at hspan
  have hequals := (Resumes.of_passes hlet hresumes).passes (.advance hresumes.rest)
  obtain ⟨after, hmakes, hpasses⟩ := body.isRead hadmissible levels middle.advance behind hdepth
    (hequals.intact hstate).eof hequals.rest hends
  have hkind : state.next.kind = .letWord := State.next_of_rest hrest ▸ isLet
  simp only [Makes, Rule.of] at hmakes
  simp only [Makes, Leaves, Rule.of, Rule.expression, hkind, Rule.binding]
  rw [hname, State.expect_of_rest _ hresumes.rest isEquals (by decide), hmakes,
    State.next_of_rest hrest]
  exact .inl ⟨_, d, after, rfl, hrepairs d hspan, hequals.passes hpasses⟩

theorem missingEquals {letToken name : Token} (isLet : letToken.kind = .letWord)
    (isName : name.kind = .identifier) (hadmissible : body.Admissible)
    (hdepth : body.depth ≤ levels) (hends : (Symbol.one .expression).Ends behind)
    (hrepairs : ∀ d : Diagnostic, (∃ next ∈ body.tokens.head?, d.span = some next.span) →
      repairs (.binding letToken name (name.text.getD "") .empty body.tree) d) :
    Falters (levels + 1) (.one .expression) (letToken :: name :: body.tokens) behind repairs
      deep := by
  intro state hstate hrest
  obtain ⟨next, others, htokens, hbegins⟩ := body.begins
  obtain ⟨hvalid, hequals, -, -⟩ := Nonterminal.not_wanted_of_begins hbegins
  have hlet := Passes.advance hrest
  have hname := hlet.trans (.advance hlet.rest)
  obtain ⟨d, middle, hequals, hresumes, hspan⟩ := State.expect_missing .equals "'=' after let name"
    (hname.intact hstate) hname.rest (by simp [htokens, hvalid, hequals]) (by decide)
  rw [State.next_of_rest (hname.rest.trans (by rw [htokens]; rfl))] at hspan
  have hread := Resumes.of_passes hname hresumes
  obtain ⟨after, hmakes, hpasses⟩ := body.isRead hadmissible levels middle behind hdepth
    (hread.intact hstate).eof hread.rest hends
  have hkind : state.next.kind = .letWord := State.next_of_rest hrest ▸ isLet
  simp only [Makes, Rule.of] at hmakes
  simp only [Makes, Leaves, Rule.of, Rule.expression, hkind, Rule.binding]
  rw [State.expect_of_rest _ hlet.rest isName (by decide), hequals, hmakes,
    State.next_of_rest hrest]
  exact .inl ⟨_, d, after, rfl, hrepairs d ⟨next, by rw [htokens]; rfl, hspan⟩,
    hread.passes hpasses⟩

end Falters

theorem BranchFalters.missingThen {levels : Nat} {behind : List Token} {deep : Prop}
    {condition body : Derivation (.one .expression)}
    {repairs : Expression → Token → Expression → Diagnostic → Prop}
    (hcondition : condition.Admissible) (hbody : body.Admissible)
    (hdepth : max condition.depth body.depth ≤ levels)
    (hends : (Symbol.one .expression).Ends behind)
    (hrepairs : ∀ d : Diagnostic, (∃ next ∈ body.tokens.head?, d.span = some next.span) →
      repairs condition.tree .empty body.tree d) :
    BranchFalters levels (condition.tokens ++ body.tokens) behind repairs deep := by
  intro state hstate hrest
  obtain ⟨next, others, htokens, hbegins⟩ := body.begins
  obtain ⟨hvalid, -, hthen, hextends⟩ := Nonterminal.not_wanted_of_begins hbegins
  obtain ⟨hdepthCondition, hdepthBody⟩ := Nat.max_le.mp hdepth
  rw [List.append_assoc] at hrest
  have hadvance : Passes state state.advance state.advance.rest := ⟨rfl, rfl, rfl, rfl⟩
  have hbehind : (Symbol.one .expression).Ends (body.tokens ++ behind) := by
    rw [htokens]
    exact Symbol.ends_cons.mpr hextends
  obtain ⟨middle, hmakes, hpasses⟩ := condition.isRead hcondition levels state.advance _
    hdepthCondition hstate.eof hrest hbehind
  have hread := hadvance.trans hpasses
  obtain ⟨d, afterThen, hthen, hresumes, hspan⟩ := State.expect_missing .thenWord "'then'"
    (hread.intact hstate) hread.rest (by simp [htokens, hvalid, hthen]) (by decide)
  rw [State.next_of_rest (hread.rest.trans (by rw [htokens]; rfl))] at hspan
  have hresumed := Resumes.of_passes hread hresumes
  obtain ⟨after, hmakesBody, hpassesBody⟩ := body.isRead hbody levels afterThen behind hdepthBody
    (hresumed.intact hstate).eof hresumed.rest hends
  exact .inl ⟨condition.tree, .empty, body.tree, d, after,
    Rule.conditional_eq_finish hmakes hthen hmakesBody,
    hrepairs d ⟨next, by rw [htokens]; rfl, hspan⟩, hresumed.passes hpassesBody⟩

end Calculator.Parser
