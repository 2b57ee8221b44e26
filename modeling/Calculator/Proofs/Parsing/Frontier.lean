import Calculator.Proofs.Parsing.Places
import Calculator.Proofs.Trees.Tokens

namespace Calculator

open Grammar Calculator.Parser

-- The tokens that were not missing.
def present (tokens : List Token) : List Token := tokens.filter fun token => !token.isEmpty

theorem present_append (first second : List Token) :
    present (first ++ second) = present first ++ present second :=
  List.filter_append _ _

-- The tokens of what a symbol is read as.
def Grammar.fringe (marks : Token → List Token) : (symbol : Symbol) → Meaning symbol → List Token
  | .one _, expression => Expression.frontier marks expression
  | .many _, steps => steps.flatMap fun step => step.1 :: step.2.frontier marks

-- That nothing a symbol is read as is a foreign value.
def Grammar.Genuine : (symbol : Symbol) → Meaning symbol → Prop
  | .one _, expression => Expression.Genuine expression
  | .many _, steps => ∀ step ∈ steps, step.2.Genuine

theorem Expression.genuine_foldl {first : Expression} {steps : List (Token × Expression)}
    (hfirst : first.Genuine) (hsteps : ∀ step ∈ steps, step.2.Genuine) :
    (steps.foldl (fun left step => Expression.binary left step.1 step.2) first).Genuine := by
  induction steps generalizing first with
  | nil => exact hfirst
  | cons step rest ih =>
    obtain ⟨hstep, hrest⟩ := List.forall_mem_cons.mp hsteps
    exact ih ⟨hfirst, hstep⟩ hrest

theorem Expression.frontier_foldl (marks : Token → List Token) (first : Expression)
    (steps : List (Token × Expression)) :
    (steps.foldl (fun left step => Expression.binary left step.1 step.2) first).frontier marks =
      first.frontier marks ++ steps.flatMap fun step => step.1 :: step.2.frontier marks := by
  induction steps generalizing first with
  | nil => simp
  | cons step rest ih => simp [ih, Expression.frontier]

namespace Parser

-- What reading puts into an expression on the way from a state to a state: the tokens that it
-- took for good, and these together with the tokens that erroneous nodes point at.
structure Gathers (state : State) (taken marked : List Token) (after : State) : Prop where
  leads : state.LeadsTo after
  kept : ∃ passed, state.rest = passed ++ after.rest ∧ (present taken).Sublist passed
  between : ∀ token ∈ present marked,
    token ∈ state.upcoming ∧ token.span.start ≤ after.next.span.start
  ordered : (present marked).Pairwise fun first second => first.span.start ≤ second.span.start

namespace Gathers

variable {state middle after : State} {taken marked taken' marked' : List Token}

theorem trans (hplace : state.InPlace) (h : Gathers state taken marked middle)
    (h' : Gathers middle taken' marked' after) :
    Gathers state (taken ++ taken') (marked ++ marked') after := by
  have hmiddle := h.leads.inPlace hplace
  obtain ⟨passed, hrest, hkept⟩ := h.kept
  obtain ⟨passed', hrest', hkept'⟩ := h'.kept
  refine ⟨h.leads.trans h'.leads, ⟨passed ++ passed', ?_, ?_⟩, ?_, ?_⟩
  · rw [hrest, hrest', List.append_assoc]
  · rw [present_append]
    exact hkept.append hkept'
  · intro token htoken
    rw [present_append] at htoken
    rcases List.mem_append.mp htoken with htoken | htoken
    · obtain ⟨hmem, hle⟩ := h.between token htoken
      exact ⟨hmem, Int.le_trans hle (h'.leads.next_le hmiddle)⟩
    · obtain ⟨hmem, hle⟩ := h'.between token htoken
      exact ⟨h.leads.upcoming.subset hmem, hle⟩
  · rw [present_append, List.pairwise_append]
    refine ⟨h.ordered, h'.ordered, fun first hfirst second hsecond => ?_⟩
    have hlast := (h.between first hfirst).2
    have hnext := State.next_le hmiddle.increasing second (h'.between second hsecond).1
    exact Int.le_trans hlast hnext

theorem pass (h : state.LeadsTo after) : Gathers state [] [] after := by
  obtain ⟨passed, hpassed⟩ := h.rest
  refine ⟨h, ⟨passed, hpassed.symm, List.nil_sublist _⟩, ?_, List.Pairwise.nil⟩
  intro token htoken
  cases htoken

theorem mark {token : Token} (h : state.LeadsTo after) (hmem : token ∈ state.upcoming)
    (hle : token.span.start ≤ after.next.span.start) : Gathers state [] [token] after := by
  obtain ⟨passed, hpassed⟩ := h.rest
  refine ⟨h, ⟨passed, hpassed.symm, List.nil_sublist _⟩, ?_, ?_⟩
  · intro other hother
    rw [List.mem_singleton.mp (List.mem_filter.mp hother).1]
    exact ⟨hmem, hle⟩
  · exact List.Pairwise.filter _ (List.pairwise_singleton _ _)

theorem missing (h : state.LeadsTo after) : Gathers state [.empty] [.empty] after := by
  have hpass := pass h
  exact ⟨h, hpass.kept, hpass.between, hpass.ordered⟩

end Gathers

-- What a stretch of reading puts into an expression if it begins in place.
def Puts (state : State) (taken marked : List Token) (after : State) : Prop :=
  state.InPlace → Gathers state taken marked after

namespace Puts

variable {state middle after : State} {taken marked taken' marked' : List Token}

theorem trans (h : Puts state taken marked middle) (h' : Puts middle taken' marked' after) :
    Puts state (taken ++ taken') (marked ++ marked') after := by
  intro hplace
  have hgathers := h hplace
  exact hgathers.trans hplace (h' (hgathers.leads.inPlace hplace))

theorem pass (h : state.LeadsTo after) : Puts state [] [] after := fun _ => .pass h

theorem markNext (h : state.LeadsTo after) : Puts state [] [state.next] after := fun hplace =>
  .mark h state.next_mem_upcoming (h.next_le hplace)

theorem advance (h : state.next.kind ≠ .eof) :
    Puts state [state.next] [state.next] state.advance := by
  intro hplace
  have hleads := State.LeadsTo.advance state
  have hmark := markNext hleads hplace
  have hrest := State.rest_eq_cons hplace.eof h
  exact ⟨hleads, ⟨[state.next], hrest, List.filter_sublist⟩, hmark.between, hmark.ordered⟩

theorem take {kind : Kind} (h : state.next.kind = kind) (hend : kind ≠ .eof) :
    Puts state [state.next] [state.next] state.advance :=
  advance (h ▸ hend)

theorem expect {kind : Kind} {what : String} {wanted : Token × State} (hend : kind ≠ .eof)
    (h : state.expect kind what = wanted) : Puts state [wanted.1] [wanted.1] wanted.2 := by
  subst h
  have hskip := State.LeadsTo.skipInvalid state
  unfold State.expect
  dsimp only
  split
  · rename_i hkind
    exact .trans (.pass hskip) (.take hkind hend)
  · exact fun _ => .missing (hskip.trans (.complain _ _ _))

theorem literal (isWhole : state.next.kind = .number) (isPoint : state.advance.next.kind = .period)
    (isFraction : state.advance.advance.next.kind = .number) :
    Puts state [state.next, state.advance.next, state.advance.advance.next]
      [state.next, state.advance.next, state.advance.advance.next]
      state.advance.advance.advance := by
  have hwhole := Puts.take isWhole (by decide)
  have hpoint := Puts.take isPoint (by decide)
  have hfraction := Puts.take isFraction (by decide)
  exact hwhole.trans (hpoint.trans hfraction)

end Puts

namespace Reads

variable {levels : Nat} {symbol : Symbol} {state after : State} {meaning : Meaning symbol}

theorem genuine (h : Reads levels symbol state meaning after) : Genuine symbol meaning := by
  induction h with
  | binding isLet hname hequals hbody ih => exact ih
  | ifThen isIf hcondition hthen hbody noElse hend ihCondition ihBody => exact ⟨ihCondition, ihBody⟩
  | ifThenElse isIf hcondition hthen hbody isElse hotherwise hend ihCondition ihBody ihOtherwise =>
    exact ⟨ihCondition, ihBody, ihOtherwise⟩
  | comparison noLet noIf hoperands ih => exact ih
  | chain hfirst hrest ihFirst ihRest => exact Expression.genuine_foldl ihFirst ihRest
  | nothing noOperator =>
    intro step hstep
    cases hstep
  | more isOperator hoperand hrest ihOperand ihRest =>
    exact List.forall_mem_cons.mpr ⟨ihOperand, ihRest⟩
  | literal hnumber ih => exact ih
  | group isLeft hinner hright ih => exact ih
  | _ => trivial

theorem puts (h : Reads levels symbol state meaning after) :
    Puts state (fringe (fun _ => []) symbol meaning)
      (fringe (fun token => [token]) symbol meaning) after := by
  induction h with
  | tooDeep => exact .markNext ((State.LeadsTo.complain _ _ _).trans (.abandon _))
  | binding isLet hname hequals hbody ih =>
    have hlet := Puts.take isLet (by decide)
    have hnameTaken := Puts.expect (by decide) hname
    have hequalsTaken := Puts.expect (by decide) hequals
    exact hlet.trans (hnameTaken.trans (hequalsTaken.trans ih))
  | ifThen isIf hcondition hthen hbody noElse hend ihCondition ihBody =>
    have hif := Puts.take isIf (by decide)
    have hthenTaken := Puts.expect (by decide) hthen
    have hendTaken := Puts.expect (by decide) hend
    exact hif.trans (ihCondition.trans (hthenTaken.trans (ihBody.trans hendTaken)))
  | ifThenElse isIf hcondition hthen hbody isElse hotherwise hend ihCondition ihBody ihOtherwise =>
    have hif := Puts.take isIf (by decide)
    have hthenTaken := Puts.expect (by decide) hthen
    have helse := Puts.take isElse (by decide)
    have hendTaken := Puts.expect (by decide) hend
    exact hif.trans (ihCondition.trans (hthenTaken.trans (ihBody.trans
      (helse.trans (ihOtherwise.trans hendTaken)))))
  | comparison noLet noIf hoperands ih => exact ih
  | chain hfirst hrest ihFirst ihRest =>
    simp only [fringe, Expression.frontier_foldl]
    exact ihFirst.trans ihRest
  | nothing noOperator => exact .pass (.look _)
  | @more levels level state afterOperand after operand steps isOperator hoperand hrest ihOperand
      ihRest =>
    have htaken := Puts.advance (level.ne_eof_of_holds isOperator)
    simp only [fringe, List.flatMap_cons, List.cons_append]
    exact htaken.trans (ihOperand.trans ihRest)
  | literal hnumber ih => exact ih
  | reference isName => exact .take isName (by decide)
  | group isLeft hinner hright ih =>
    have hclosed := ih.trans (.pass (.expect hright))
    rw [List.append_nil, List.append_nil] at hclosed
    exact .trans (.pass (.advance _)) hclosed
  | invalid isInvalid => exact .markNext ((State.LeadsTo.advance _).trans (.report _ _))
  | missing closes => exact .markNext (.complain _ _ _)
  | misplaced noClose noPrimary noInvalid =>
    exact .markNext ((State.LeadsTo.complain _ _ _).trans (.advance _))
  | integer isWhole noPoint short => exact .take isWhole (by decide)
  | tooLong isWhole noPoint long =>
    exact .markNext ((State.LeadsTo.advance _).trans (.complain _ _ _))
  | real isWhole isPoint isFraction touching => exact .literal isWhole isPoint isFraction
  | spacedReal isWhole isPoint isFraction spaced =>
    exact .trans (.literal isWhole isPoint isFraction) (.pass (.complain _ _ _))
  | noFraction isWhole isPoint noFraction =>
    exact .trans (.pass (.advance _))
      (.markNext ((State.LeadsTo.advance _).trans (.complain _ _ _)))

end Reads

end Parser

def Token.isParenthesis (token : Token) : Bool :=
  token.kind = .leftParen || token.kind = .rightParen

theorem Grammar.Level.not_isParenthesis_of_holds {level : Level} {token : Token}
    (h : level.holds token.kind = true) : token.isParenthesis = false := by
  unfold Token.isParenthesis
  cases hkind : token.kind <;> rw [hkind] at h <;> cases level <;> revert h <;> decide

-- Parentheses are all that the expression of a derivation leaves out.
theorem Grammar.Derivation.fringe_tree {symbol : Symbol} (d : Derivation symbol)
    (marks : Token → List Token) :
    fringe marks symbol d.tree = d.tokens.filter fun token => !token.isParenthesis := by
  have keep : ∀ {token : Token} {kind : Kind}, token.kind = kind → kind ≠ .leftParen →
      kind ≠ .rightParen → token.isParenthesis = false := by
    rintro token kind rfl hleft hright
    simp [Token.isParenthesis, hleft, hright]
  induction d with
  | binding letToken name equals body isLet isName isEquals ih =>
    simp only [fringe] at ih
    simp [fringe, Expression.frontier, tree, tokens, ih, keep isLet, keep isName, keep isEquals]
  | ifThen ifToken condition thenToken body endToken isIf isThen isEnd ihCondition ihBody =>
    simp only [fringe] at ihCondition ihBody
    simp [fringe, Expression.frontier, tree, tokens, ihCondition, ihBody, keep isIf, keep isThen,
      keep isEnd]
  | ifThenElse ifToken condition thenToken body elseToken otherwise endToken isIf isThen isElse
      isEnd ihCondition ihBody ihOtherwise =>
    simp only [fringe] at ihCondition ihBody ihOtherwise
    simp [fringe, Expression.frontier, tree, tokens, ihCondition, ihBody, ihOtherwise, keep isIf,
      keep isThen, keep isElse, keep isEnd]
  | comparison operands ih => exact ih
  | chain first rest ihFirst ihRest =>
    simp only [fringe] at ihFirst ihRest
    simp only [fringe, tree, tokens, Expression.frontier_foldl, ihFirst, ihRest,
      List.filter_append]
  | nothing => rfl
  | more operator operand rest isOperator ihOperand ihRest =>
    simp only [fringe] at ihOperand ihRest
    simp [fringe, tree, tokens, ihOperand, ihRest, Level.not_isParenthesis_of_holds isOperator]
  | literal number ih => exact ih
  | reference name isName =>
    simp [fringe, Expression.frontier, tree, tokens, keep isName]
  | group left inner right isLeft isRight ih =>
    simp only [fringe] at ih
    simp [fringe, tree, tokens, ih, Token.isParenthesis, isLeft, isRight]
  | integer digits isDigits => simp [fringe, Expression.frontier, tree, tokens, keep isDigits]
  | real whole point fraction isWhole isPoint isFraction =>
    simp [fringe, Expression.frontier, tree, tokens, keep isWhole, keep isPoint, keep isFraction]

-- The walk over what was read of a text yields tokens of the text in source order, missing ones
-- left out. Without those of erroneous nodes they are some of its tokens, each once. If nothing was
-- wrong they are all of its tokens but parentheses and the end.
theorem tree_keeps_tokens (source : Source) (file : String) :
    let lexer : Lexer := { source, file }
    let reading := Reading.ofSource source file
    let yielded := reading.expression.frontier fun token => [token]
    let sound := reading.expression.frontier fun _ => []
    reading.expression.tokenWalk.complete = .ok yielded ∧
    (∀ token ∈ present yielded, token ∈ lexer.tokenize.1) ∧
    ((present yielded).Pairwise fun first second => first.span.start ≤ second.span.start) ∧
    (present sound).Sublist lexer.tokenize.1.dropLast ∧
    Increasing (present sound) ∧
    (reading.diagnostics = [] →
      yielded = lexer.tokenize.1.dropLast.filter fun token => !token.isParenthesis) := by
  intro lexer reading yielded sound
  have htokens : lexer.tokenize.1.dropLast = lexer.drain.tokens := List.dropLast_concat
  have hreads := Reading.reads source file
  have hgathers := hreads.puts (Reading.inPlace source file)
  have hwalk : reading.expression.tokenWalk = ⟨yielded, none⟩ := by
    rw [Expression.tokenWalk_eq]
    exact Expression.leaves_of_genuine hreads.genuine
  have hsound : (present sound).Sublist lexer.drain.tokens := by
    obtain ⟨passed, hpassed, hkept⟩ := hgathers.kept
    have hfront : passed <+: lexer.drain.tokens := ⟨_, hpassed.symm⟩
    exact hkept.trans hfront.sublist
  have hincreasing : Increasing lexer.drain.tokens :=
    (Lexer.increasing_tokenize source file).sublist (List.sublist_append_left _ _)
  rw [htokens]
  refine ⟨?_, fun token htoken => (hgathers.between token htoken).1, hgathers.ordered, hsound,
    hincreasing.sublist hsound, fun hclean => ?_⟩
  · rw [hwalk]
    rfl
  · obtain ⟨d, hd, htree⟩ := Reading.derivation_of_clean hclean
    have hfrontier := d.fringe_tree fun token => [token]
    rw [hd.tokens] at hfrontier
    rw [← hfrontier, ← htree]
    rfl

theorem tree_keeps_product :
    ((Reading.ofSource (.ofString "a*(b)") "f").expression.frontier fun token => [token]).map
      Token.lexeme = ["a", "*", "b"] := by
  rw [(tree_keeps_tokens (.ofString "a*(b)") "f").2.2.2.2.2 (by cbv)]
  cbv

end Calculator
