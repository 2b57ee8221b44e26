import Mathlib.Data.List.Forall2
import Calculator.Proofs.Parsing.Kinds
import Calculator.Proofs.Parsing.Reports

namespace Calculator

open Grammar Calculator.Parser

-- The message of an erroneous node.
def Expression.message? : Expression → Option String
  | erroneous _ message => some message
  | _ => none

-- The gap that a token leaves in its place, if it was missing.
def Token.gap (token : Token) : List (Option String) := if token.isEmpty then [none] else []

-- The gaps in an expression in source order: the messages of erroneous nodes, and `none` for each
-- missing token.
def Expression.gaps : Expression → List (Option String)
  | integer token _ | reference token _ => token.gap
  | real whole point fraction _ => whole.gap ++ (point.gap ++ fraction.gap)
  | binary left operator right => left.gaps ++ (operator.gap ++ right.gaps)
  | ifThen ifToken condition thenToken body endToken _ =>
    ifToken.gap ++ (condition.gaps ++ (thenToken.gap ++ (body.gaps ++ endToken.gap)))
  | ifThenElse ifToken condition thenToken body elseToken otherwise endToken =>
    ifToken.gap ++ (condition.gaps ++ (thenToken.gap ++ (body.gaps ++
      (elseToken.gap ++ (otherwise.gaps ++ endToken.gap)))))
  | binding letToken nameToken _ equals body =>
    letToken.gap ++ (nameToken.gap ++ (equals.gap ++ body.gaps))
  | erroneous token message => some message :: token.gap
  | foreign _ => []

-- The gaps in what a symbol is read as.
def Grammar.gaps : (symbol : Symbol) → Meaning symbol → List (Option String)
  | .one _, expression => Expression.gaps expression
  | .many _, steps => steps.flatMap fun step => step.1.gap ++ step.2.gaps

namespace Token

theorem gap_of_kind {token : Token} {kind : Kind} (h : token.kind = kind) (hne : kind ≠ .empty) :
    token.gap = [] := by
  simp [gap, isEmpty, h, hne]

theorem filterMap_gap (token : Token) : token.gap.filterMap id = [] := by
  unfold gap
  split <;> rfl

theorem countP_isEmpty_cons (token : Token) (rest : List Token) :
    (token :: rest).countP isEmpty = rest.countP isEmpty + token.gap.length := by
  rw [List.countP_cons, gap]
  split <;> rfl

end Token

namespace Expression

theorem gaps_erroneous {token : Token} {kind : Kind} (h : token.kind = kind) (hne : kind ≠ .empty)
    (message : String) : (erroneous token message).gaps = [some message] := by
  rw [gaps, Token.gap_of_kind h hne]

theorem gaps_foldl (first : Expression) (steps : List (Token × Expression)) :
    (steps.foldl (fun left step => binary left step.1 step.2) first).gaps =
      first.gaps ++ steps.flatMap fun step => step.1.gap ++ step.2.gaps := by
  induction steps generalizing first with
  | nil => simp
  | cons step rest ih => simp [ih, gaps]

theorem filterMap_gaps (expression : Expression) :
    expression.gaps.filterMap id = expression.nodes.filterMap message? := by
  induction expression with
  | integer token value => exact token.filterMap_gap
  | reference token name => exact token.filterMap_gap
  | real whole point fraction value =>
    simp only [gaps, List.filterMap_append, Token.filterMap_gap]
    rfl
  | erroneous token message =>
    show message :: token.gap.filterMap id = [message]
    rw [token.filterMap_gap]
  | foreign sort => rfl
  | binary left operator right ihLeft ihRight =>
    rw [gaps, nodes, List.filterMap_cons_none rfl]
    simp only [List.filterMap_append, Token.filterMap_gap, ihLeft, ihRight, List.nil_append]
  | ifThen ifToken condition thenToken body endToken elseToken ihCondition ihBody =>
    rw [gaps, nodes, List.filterMap_cons_none rfl]
    simp only [List.filterMap_append, Token.filterMap_gap, ihCondition, ihBody, List.nil_append,
      List.append_nil]
  | ifThenElse ifToken condition thenToken body elseToken otherwise endToken ihCondition ihBody
      ihOtherwise =>
    rw [gaps, nodes, List.filterMap_cons_none rfl]
    simp only [List.filterMap_append, Token.filterMap_gap, ihCondition, ihBody, ihOtherwise,
      List.nil_append, List.append_nil]
  | binding letToken nameToken name equals body ih =>
    rw [gaps, nodes, List.filterMap_cons_none rfl]
    simp only [List.filterMap_append, Token.filterMap_gap, ih, List.nil_append]

theorem length_gaps (expression : Expression) :
    expression.gaps.length = (expression.nodes.filterMap message?).length +
      (expression.frontier fun token => [token]).countP Token.isEmpty := by
  induction expression with
  | integer token value =>
    show token.gap.length = 0 + [token].countP Token.isEmpty
    rw [Token.countP_isEmpty_cons, List.countP_nil, Nat.zero_add, Nat.zero_add]
  | reference token name =>
    show token.gap.length = 0 + [token].countP Token.isEmpty
    rw [Token.countP_isEmpty_cons, List.countP_nil, Nat.zero_add, Nat.zero_add]
  | real whole point fraction value =>
    show (whole.gap ++ (point.gap ++ fraction.gap)).length =
      0 + [whole, point, fraction].countP Token.isEmpty
    simp only [Token.countP_isEmpty_cons, List.countP_nil, List.length_append]
    omega
  | erroneous token message =>
    show token.gap.length + 1 = 1 + [token].countP Token.isEmpty
    rw [Token.countP_isEmpty_cons, List.countP_nil, Nat.zero_add, Nat.add_comm]
  | foreign sort => rfl
  | binary left operator right ihLeft ihRight =>
    rw [gaps, nodes, List.filterMap_cons_none rfl]
    simp only [frontier, Token.countP_isEmpty_cons, List.countP_append, List.filterMap_append,
      List.length_append, ihLeft, ihRight]
    omega
  | ifThen ifToken condition thenToken body endToken elseToken ihCondition ihBody =>
    rw [gaps, nodes, List.filterMap_cons_none rfl]
    simp only [frontier, Token.countP_isEmpty_cons, List.countP_append, List.countP_nil,
      List.filterMap_append, List.length_append, ihCondition, ihBody]
    omega
  | ifThenElse ifToken condition thenToken body elseToken otherwise endToken ihCondition ihBody
      ihOtherwise =>
    rw [gaps, nodes, List.filterMap_cons_none rfl]
    simp only [frontier, Token.countP_isEmpty_cons, List.countP_append, List.countP_nil,
      List.filterMap_append, List.length_append, ihCondition, ihBody, ihOtherwise]
    omega
  | binding letToken nameToken name equals body ih =>
    rw [gaps, nodes, List.filterMap_cons_none rfl]
    simp only [frontier, Token.countP_isEmpty_cons, List.length_append, ih]
    omega

end Expression

namespace Parser

-- That a report may be that of a gap: that of an erroneous node has its message.
def Explains (gap : Option String) (report : Diagnostic) : Prop :=
  ∀ message ∈ gap, report.message = message

def State.Unlimited (state : State) : Prop := ∀ d ∈ state.reports, d.isNesting = false

-- The gaps that reading leaves on the way from a state to a state, each of which has a report of
-- its own if nesting does not go too deep.
structure Owns (state : State) (gaps : List (Option String)) (after : State) : Prop where
  leads : state.LeadsTo after
  owned : state.abandoned = false → after.Unlimited → after.abandoned = false ∧
    ∃ new owners, after.reports = new ++ state.reports ∧ owners.Sublist new.reverse ∧
      List.Forall₂ Explains gaps owners

namespace Owns

variable {state middle after : State} {gaps gaps' : List (Option String)}

theorem trans (h : Owns state gaps middle) (h' : Owns middle gaps' after) :
    Owns state (gaps ++ gaps') after := by
  refine ⟨h.leads.trans h'.leads, fun hreading hunlimited => ?_⟩
  have hmiddle : middle.Unlimited := fun d hd => hunlimited d (h'.leads.reports.subset hd)
  obtain ⟨hstill, new, owners, hnew, hsub, hexplains⟩ := h.owned hreading hmiddle
  obtain ⟨hlast, new', owners', hnew', hsub', hexplains'⟩ := h'.owned hstill hunlimited
  refine ⟨hlast, new' ++ new, owners ++ owners', ?_, ?_, List.rel_append hexplains hexplains'⟩
  · rw [hnew', hnew, List.append_assoc]
  · rw [List.reverse_append]
    exact hsub.append hsub'

theorem pass (h : state.LeadsTo after) (hsame : after.abandoned = state.abandoned) :
    Owns state [] after := by
  refine ⟨h, fun hreading _ => ⟨hsame.trans hreading, ?_⟩⟩
  obtain ⟨new, hnew⟩ := h.reports
  exact ⟨new, [], hnew.symm, List.nil_sublist _, .nil⟩

theorem advance (state : State) : Owns state [] state.advance :=
  pass (.advance state) rfl

theorem report {gap : Option String} {d : Diagnostic} (h : Explains gap d) (state : State) :
    Owns state [gap] (state.report d) :=
  ⟨.report d state, fun hreading _ =>
    ⟨hreading, [d], [d], rfl, List.Sublist.refl _, .cons h .nil⟩⟩

theorem complain {gap : Option String} {message : String} (token : Token)
    (h : Explains gap (misplaced message token)) (state : State) :
    Owns state [gap] (state.complain message token) := by
  cases habandoned : state.abandoned with
  | true =>
    refine ⟨.complain message token state, fun hreading => ?_⟩
    rw [habandoned] at hreading
    cases hreading
  | false =>
    have hcomplain : state.complain message token = state.report (misplaced message token) := by
      simp [State.complain, habandoned]
    rw [hcomplain]
    exact report h state

theorem take {kind : Kind} (h : state.next.kind = kind) (hne : kind ≠ .empty) :
    Owns state state.next.gap state.advance := by
  rw [Token.gap_of_kind h hne]
  exact advance state

theorem expect {kind : Kind} {what : String} {wanted : Token × State} (hne : kind ≠ .empty)
    (h : state.expect kind what = wanted) : Owns state wanted.1.gap wanted.2 := by
  subst h
  have hskip : Owns state [] state.skipInvalid := pass (.skipInvalid state) rfl
  unfold State.expect
  dsimp only
  split
  · rename_i hkind
    exact hskip.trans (take hkind hne)
  · have hnothing : ∀ d : Diagnostic, Explains none d := by
      rintro d message ⟨⟩
    exact hskip.trans (complain _ (hnothing _) _)

theorem forget (h : Owns state gaps after) : Owns state [] after := by
  refine ⟨h.leads, fun hreading hunlimited => ?_⟩
  obtain ⟨hstill, new, _, hnew, _⟩ := h.owned hreading hunlimited
  exact ⟨hstill, new, [], hnew, List.nil_sublist _, .nil⟩

theorem blame {message : String} (token : Token) (state : State) :
    Owns state [some message] (state.complain message token) := by
  refine complain token ?_ state
  rintro _ ⟨⟩
  rfl

end Owns

namespace Reads

variable {levels : Nat} {symbol : Symbol} {state after : State} {meaning : Meaning symbol}
  {file : String}

-- Every gap in what is read has a report of its own, on every way through the rules.
theorem owns (h : Reads levels symbol state meaning after) (hsound : state.Sound file) :
    Owns state (gaps symbol meaning) after := by
  induction h with
  | @tooDeep state =>
    refine ⟨(State.LeadsTo.complain _ _ _).trans (.abandon _), fun hreading hunlimited => ?_⟩
    have hreports : (state.complain Message.tooDeep state.next).abandon.reports =
        Parser.misplaced Message.tooDeep state.next :: state.reports :=
      State.reports_complain _ _ hreading
    have hquiet := hunlimited (Parser.misplaced Message.tooDeep state.next)
      (hreports ▸ List.mem_cons_self)
    simp [Diagnostic.isNesting, Parser.misplaced] at hquiet
  | binding isLet hname hequals hbody ih =>
    have hbound := (hsound.advance.expect hname).1.expect hequals
    have hlet := Owns.take isLet (by decide)
    have hnameTaken := Owns.expect (by decide) hname
    have hequalsTaken := Owns.expect (by decide) hequals
    exact hlet.trans (hnameTaken.trans (hequalsTaken.trans (ih hbound.1)))
  | ifThen isIf hcondition hthen hbody noElse hend ihCondition ihBody =>
    have hbranch := (hsound.advance.of_leadsTo hcondition.leadsTo).expect hthen
    have hif := Owns.take isIf (by decide)
    have hthenTaken := Owns.expect (by decide) hthen
    have hendTaken := Owns.expect (by decide) hend
    exact hif.trans ((ihCondition hsound.advance).trans
      (hthenTaken.trans ((ihBody hbranch.1).trans hendTaken)))
  | ifThenElse isIf hcondition hthen hbody isElse hotherwise hend ihCondition ihBody ihOtherwise =>
    have hbranch := (hsound.advance.of_leadsTo hcondition.leadsTo).expect hthen
    have hother := (hbranch.1.of_leadsTo hbody.leadsTo).advance
    have hif := Owns.take isIf (by decide)
    have hthenTaken := Owns.expect (by decide) hthen
    have helse := Owns.take isElse (by decide)
    have hendTaken := Owns.expect (by decide) hend
    exact hif.trans ((ihCondition hsound.advance).trans (hthenTaken.trans
      ((ihBody hbranch.1).trans (helse.trans ((ihOtherwise hother).trans hendTaken)))))
  | comparison noLet noIf hoperands ih => exact ih hsound
  | chain hfirst hrest ihFirst ihRest =>
    simp only [gaps, Expression.gaps_foldl]
    exact (ihFirst hsound).trans (ihRest (hsound.of_leadsTo hfirst.leadsTo))
  | nothing noOperator => exact .pass (.look _) rfl
  | @more levels level state afterOperand after operand steps isOperator hoperand hrest ihOperand
      ihRest =>
    have htaken : Owns state state.next.gap state.advance := .take rfl hsound.next.kind
    have hbehind := ihRest (hsound.advance.of_leadsTo hoperand.leadsTo)
    simp only [gaps, List.flatMap_cons, List.append_assoc]
    exact htaken.trans ((ihOperand hsound.advance).trans hbehind)
  | literal hnumber ih => exact ih hsound
  | reference isName => exact .take isName (by decide)
  | group isLeft hinner hright ih =>
    have hclosed := (ih hsound.advance).trans (Owns.expect (by decide) hright).forget
    rw [List.append_nil] at hclosed
    exact (Owns.advance _).trans hclosed
  | @invalid levels state isInvalid =>
    have hreport : Owns state.advance [some (Message.invalidCharacter state.next)]
        (state.advance.report (invalidCharacter state.next)) := by
      refine .report ?_ _
      rintro _ ⟨⟩
      rfl
    rw [gaps, Expression.gaps_erroneous isInvalid (by decide)]
    exact (Owns.advance state).trans hreport
  | missing closes =>
    rw [gaps, Expression.gaps_erroneous rfl hsound.next.kind]
    exact .blame _ _
  | misplaced noClose noPrimary noInvalid =>
    rw [gaps, Expression.gaps_erroneous rfl hsound.next.kind]
    exact (Owns.blame _ _).trans (.advance _)
  | integer isWhole noPoint short => exact .take isWhole (by decide)
  | tooLong isWhole noPoint long =>
    rw [gaps, Expression.gaps_erroneous isWhole (by decide)]
    exact (Owns.advance _).trans (.blame _ _)
  | real isWhole isPoint isFraction touching =>
    have hwhole := Owns.take isWhole (by decide)
    have hpoint := Owns.take isPoint (by decide)
    exact hwhole.trans (hpoint.trans (.take isFraction (by decide)))
  | @spacedReal levels state isWhole isPoint isFraction spaced =>
    have hwhole := Owns.take isWhole (by decide)
    have hpoint := Owns.take isPoint (by decide)
    have hfraction := Owns.take isFraction (by decide)
    have hspaced : Owns state.advance.advance.advance [some Message.spacedReal]
        (state.advance.advance.advance.complain Message.spacedReal state.next) := .blame _ _
    have hreported := (hwhole.trans (hpoint.trans hfraction)).trans hspaced.forget
    rwa [List.append_nil] at hreported
  | noFraction isWhole isPoint noFraction =>
    rw [gaps, Expression.gaps_erroneous isPoint (by decide)]
    exact (Owns.advance _).trans ((Owns.advance _).trans (.blame _ _))

end Reads

end Parser

namespace Reading

theorem reports_suffix (source : Source) (file : String) :
    ∃ more, (ofSource source file).diagnostics = (Rule.expression maxNesting
      (.ofLexer { source, file })).2.reports.reverse ++ more := by
  have hlistening : (State.ofLexer { source, file }).abandoned = false := rfl
  have hreports := State.reports_takeExpression hlistening
  refine ⟨leftOver (State.takeExpression (.ofLexer { source, file })).2.abandoned
    (State.takeExpression (.ofLexer { source, file })).2.rest, ?_⟩
  rw [← hreports, ← List.reverse_reverse (leftOver _ _), ← List.reverse_append]
  rfl

-- Every gap in the expression of a text has a diagnostic of its own, if nesting does not go too
-- deep.
theorem explained (source : Source) (file : String)
    (h : ∀ d ∈ (ofSource source file).diagnostics, d.isNesting = false) :
    ∃ owners, owners.Sublist (ofSource source file).diagnostics ∧
      List.Forall₂ Explains (ofSource source file).expression.gaps owners := by
  have howns := (reads source file).owns (Lexer.sound source file)
  obtain ⟨more, hmore⟩ := reports_suffix source file
  rw [hmore] at h ⊢
  have hunlimited : (Rule.expression maxNesting (.ofLexer { source, file })).2.Unlimited :=
    fun d hd => h d (List.mem_append_left _ (List.mem_reverse.mpr hd))
  obtain ⟨_, new, owners, hnew, hsub, hexplains⟩ := howns.owned rfl hunlimited
  have hall : new = (Rule.expression maxNesting (.ofLexer { source, file })).2.reports := by
    rw [hnew]
    exact (List.append_nil new).symm
  exact ⟨owners, (hall ▸ hsub).trans (List.sublist_append_left _ _), hexplains⟩

end Reading

namespace Parser

theorem filterMap_explains {gaps : List (Option String)} {owners : List Diagnostic}
    (h : List.Forall₂ Explains gaps owners) :
    (gaps.filterMap id).Sublist (owners.map Diagnostic.message) := by
  induction h with
  | nil => exact List.Sublist.refl _
  | @cons gap owner gaps owners hgap hrest ih =>
    cases gap with
    | none => exact ih.cons _
    | some message =>
      show (message :: gaps.filterMap id).Sublist (owner.message :: owners.map Diagnostic.message)
      rw [hgap message rfl]
      exact ih.cons_cons message

end Parser

-- Every erroneous node and every missing token in what is read of a text has a diagnostic of its
-- own, unless nesting goes too deep: the erroneous nodes such with their messages, in order. So
-- what is read without a diagnostic has none of them.
theorem placeholders_diagnosed (source : Source) (file : String) :
    let reading := Reading.ofSource source file
    let messages := reading.expression.nodeWalk.visited.filterMap Expression.message?
    let missing := reading.expression.tokenWalk.visited.countP Token.isEmpty
    (reading.expression.nodeWalk.foreign = none ∧ reading.expression.tokenWalk.foreign = none) ∧
      ((∀ d ∈ reading.diagnostics, d.isNesting = false) →
        messages.Sublist (reading.diagnostics.map Diagnostic.message) ∧
          messages.length + missing ≤ reading.diagnostics.length) ∧
      ((∃ d ∈ reading.diagnostics, d.isNesting = true) → 1 ≤ reading.diagnostics.length) ∧
      (messages ≠ [] ∨ missing ≠ 0 → reading.diagnostics ≠ []) := by
  intro reading messages missing
  have hgenuine : reading.expression.Genuine := (Reading.reads source file).genuine
  have hnodes := Expression.nodeWalk_of_genuine hgenuine
  have htokens := Expression.tokenWalk_of_genuine hgenuine
  have hmessages : messages = reading.expression.gaps.filterMap id := by
    show reading.expression.nodeWalk.visited.filterMap Expression.message? = _
    rw [hnodes, reading.expression.filterMap_gaps]
  have hmissing : messages.length + missing = reading.expression.gaps.length := by
    show (reading.expression.nodeWalk.visited.filterMap Expression.message?).length +
      reading.expression.tokenWalk.visited.countP Token.isEmpty = _
    rw [hnodes, htokens, reading.expression.length_gaps]
  have howned : (∀ d ∈ reading.diagnostics, d.isNesting = false) →
      messages.Sublist (reading.diagnostics.map Diagnostic.message) ∧
        messages.length + missing ≤ reading.diagnostics.length := by
    intro hquiet
    obtain ⟨owners, hsub, hexplains⟩ := Reading.explained source file hquiet
    rw [hmissing, hmessages, hexplains.length_eq]
    exact ⟨(filterMap_explains hexplains).trans (hsub.map _), hsub.length_le⟩
  refine ⟨⟨by rw [hnodes], by rw [htokens]⟩, howned, ?_, fun hgap hnone => ?_⟩
  · rintro ⟨d, hd, _⟩
    exact List.length_pos_of_mem hd
  · have hempty := (howned (by simp [hnone])).2
    rw [hnone, List.length_nil, Nat.le_zero, Nat.add_eq_zero_iff, List.length_eq_zero_iff]
      at hempty
    rcases hgap with hsome | hsome
    · exact hsome hempty.1
    · exact hsome hempty.2

-- Of a condition that breaks off, the body and two words are missing.
theorem unfinished_condition_diagnosed :
    3 ≤ (Reading.ofSource (.ofString "if 1") "f").diagnostics.length := by
  have hquiet : (Reading.ofSource (.ofString "if 1") "f").diagnostics.all
      (fun d => !d.isNesting) = true := by cbv
  have howned := (placeholders_diagnosed (.ofString "if 1") "f").2.1 fun d hd => by
    simpa using List.all_eq_true.mp hquiet d hd
  have hgaps : ((Reading.ofSource (.ofString "if 1") "f").expression.nodeWalk.visited.filterMap
      Expression.message?).length + (Reading.ofSource (.ofString "if 1")
        "f").expression.tokenWalk.visited.countP Token.isEmpty = 3 := by cbv
  rw [← hgaps]
  exact howned.2

end Calculator
