import Mathlib.Logic.Relation
import Calculator.Proofs.Parsing.Places

namespace Calculator

open Grammar Relation

theorem Grammar.Level.ne_invalid_of_holds {level : Level} {kind : Kind}
    (h : level.holds kind = true) : kind ≠ .invalid := by
  rintro rfl
  cases level <;> revert h <;> decide

namespace Parser

namespace Message

theorem ne_tooDeep {message : String} (h : message.toList[3]? ≠ some 'r') : message ≠ tooDeep := by
  rintro rfl
  exact h (by decide +kernel)

theorem expected_ne_tooDeep (what : String) (got : Token) : expected what got ≠ tooDeep := by
  apply ne_tooDeep
  simp [expected]

theorem leftOver_ne_tooDeep (token : Token) : leftOver token ≠ tooDeep := by
  apply ne_tooDeep
  simp [leftOver]

theorem tooLong_ne_tooDeep (token : Token) : tooLong token ≠ tooDeep := by
  apply ne_tooDeep
  unfold tooLong
  generalize toString token.span.length = digits
  simp

theorem spacedReal_ne_tooDeep : spacedReal ≠ tooDeep := by
  apply ne_tooDeep
  simp [spacedReal]

end Message

namespace State

-- The state after so many tokens were taken.
def advances : Nat → State → State
  | 0, state => state
  | count + 1, state => state.advance.advances count

theorem advances_eq (count : Nat) (state : State) :
    (state.advances count).rest = state.rest.drop count ∧
      (state.advances count).eof = state.eof ∧
      (state.advances count).reports = state.reports ∧
      (state.advances count).abandoned = state.abandoned := by
  induction count generalizing state with
  | zero => exact ⟨rfl, rfl, rfl, rfl⟩
  | succ count ih =>
    obtain ⟨hrest, heof, hreports, habandoned⟩ := ih state.advance
    refine ⟨?_, heof, hreports, habandoned⟩
    rw [advances, hrest, rest_advance, List.drop_tail]

theorem advance_complain (message : String) (token : Token) (state : State) :
    (state.complain message token).advance = state.advance.complain message token := by
  unfold complain
  cases habandoned : state.abandoned <;> simp [advance, report, habandoned]

theorem valid_take_succ {state : State} {count : Nat} (h : state.next.kind ≠ .invalid)
    (hrest : ∀ token ∈ state.advance.rest.take count, token.kind ≠ .invalid) :
    ∀ token ∈ state.rest.take (count + 1), token.kind ≠ .invalid := by
  rw [rest_advance] at hrest
  unfold next at h
  cases hcons : state.rest <;> simp_all

theorem valid_take_one {state : State} (h : state.next.kind ≠ .invalid) :
    ∀ token ∈ state.rest.take 1, token.kind ≠ .invalid :=
  valid_take_succ h (by simp)

theorem skipInvalid_of_next {state : State} {token : Token} {rest : List Token}
    (hrest : state.rest = token :: rest) (h : token.kind = .invalid) :
    state.skipInvalid = (state.advance.report (invalidCharacter token)).skipInvalid := by
  simp [skipInvalid, advance, report, hrest, h]

end State

-- One move of a reading. A problem may be reported at a token when up to `count` tokens are taken
-- from there on.
inductive Move : State → State → Prop where
  | look (state : State) : Move state state.look
  | take {state : State} (valid : state.next.kind ≠ .invalid) : Move state state.advance
  | skip {state : State} (invalid : state.next.kind = .invalid) :
      Move state (state.advance.report (invalidCharacter state.next))
  | blame {state : State} (message : String) (count : Nat) (other : message ≠ Message.tooDeep)
      (valid : ∀ token ∈ state.rest.take count, token.kind ≠ .invalid) :
      Move state ((state.advances count).complain message state.next)
  | giveUp (state : State) : Move state (state.complain Message.tooDeep state.next).abandon

abbrev Moves : State → State → Prop := ReflTransGen Move

namespace Move

variable {state after : State}

theorem leadsTo (h : Move state after) : state.LeadsTo after := by
  cases h with
  | look => exact .look state
  | take valid => exact .advance state
  | skip invalid => exact (State.LeadsTo.advance state).trans (.report _ _)
  | blame message count other valid =>
    obtain ⟨hrest, heof, hreports, _⟩ := State.advances_eq count state
    have hadvances : state.LeadsTo (state.advances count) :=
      ⟨heof, hrest ▸ List.drop_suffix _ _, hreports ▸ List.suffix_refl _⟩
    exact hadvances.trans (.complain _ _ _)
  | giveUp => exact (State.LeadsTo.complain _ _ _).trans (.abandon _)

theorem reports (h : Move state after) :
    after.reports = state.reports ∨
      ∃ d : Diagnostic, d.span = some state.next.span ∧ after.reports = d :: state.reports := by
  have hcomplain : ∀ (message : String) (reading : State), reading.reports = state.reports →
      (reading.complain message state.next).reports = state.reports ∨
        ∃ d : Diagnostic, d.span = some state.next.span ∧
          (reading.complain message state.next).reports = d :: state.reports := by
    intro message reading hsame
    unfold State.complain
    split
    · exact .inl hsame
    · exact .inr ⟨misplaced message state.next, rfl, by rw [State.reports_report, hsame]⟩
  cases h with
  | look => exact .inl rfl
  | take valid => exact .inl rfl
  | skip invalid => exact .inr ⟨invalidCharacter state.next, rfl, rfl⟩
  | blame message count other valid =>
    exact hcomplain message _ (State.advances_eq count state).2.2.1
  | giveUp => exact hcomplain Message.tooDeep state rfl

end Move

theorem State.moves_skipInvalid (state : State) : Moves state state.skipInvalid := by
  induction hlength : state.rest.length generalizing state with
  | zero =>
    have hnil := List.length_eq_zero_iff.mp hlength
    rw [skipInvalid_of_rest (by simp [hnil])]
    exact .single (.look state)
  | succ count ih =>
    obtain ⟨token, rest, hrest⟩ := List.exists_cons_of_length_eq_add_one hlength
    have hnext := next_of_rest hrest
    by_cases hinvalid : token.kind = .invalid
    · have hskip : Move state (state.advance.report (invalidCharacter token)) :=
        hnext ▸ Move.skip (hnext ▸ hinvalid)
      have hafter : state.advance.rest.length = count := by
        rw [rest_advance, List.length_tail, hlength, Nat.add_sub_cancel]
      rw [skipInvalid_of_next hrest hinvalid]
      exact .head hskip (ih _ hafter)
    · rw [skipInvalid_of_rest (by simp [hrest, hinvalid])]
      exact .single (.look state)

theorem State.moves_expect {state : State} {kind : Kind} {what : String} {wanted : Token × State}
    (hvalid : kind ≠ .invalid) (h : state.expect kind what = wanted) : Moves state wanted.2 := by
  subst h
  have hskip := state.moves_skipInvalid
  unfold expect
  dsimp only
  split
  · rename_i hkind
    exact hskip.tail (.take (hkind ▸ hvalid))
  · exact hskip.tail (.blame _ 0 (Message.expected_ne_tooDeep _ _) (by simp))

namespace Moves

variable {state after : State}

-- What every move keeps is kept by any number of them.
theorem keeps {invariant : State → Prop}
    (hmove : ∀ {state after : State}, Move state after → invariant state → invariant after)
    (h : Moves state after) (hstate : invariant state) : invariant after := by
  induction h with
  | refl => exact hstate
  | tail _ move ih => exact hmove move ih

theorem leadsTo (h : Moves state after) : state.LeadsTo after :=
  h.keeps (fun move hleads => hleads.trans move.leadsTo) (.refl state)

theorem take {kind : Kind} (h : state.next.kind = kind) (valid : kind ≠ .invalid) :
    Moves state state.advance :=
  .single (.take (h ▸ valid))

theorem blame {message : String} (count : Nat) (other : message ≠ Message.tooDeep)
    (valid : ∀ token ∈ state.rest.take count, token.kind ≠ .invalid) :
    Moves state ((state.advances count).complain message state.next) :=
  .single (.blame message count other valid)

end Moves

namespace Reads

variable {levels : Nat} {symbol : Symbol} {state after : State} {meaning : Meaning symbol}

theorem moves (h : Reads levels symbol state meaning after) : Moves state after := by
  induction h with
  | tooDeep => exact .single (.giveUp _)
  | binding isLet hname hequals hbody ih =>
    have hlet := Moves.take isLet (by decide)
    have hwords := (State.moves_expect (by decide) hname).trans
      (State.moves_expect (by decide) hequals)
    exact (hlet.trans hwords).trans ih
  | ifThen isIf hcondition hthen hbody noElse hend ihCondition ihBody =>
    have hif := Moves.take isIf (by decide)
    have hbranch := (ihCondition.trans (State.moves_expect (by decide) hthen)).trans ihBody
    exact (hif.trans hbranch).trans (State.moves_expect (by decide) hend)
  | ifThenElse isIf hcondition hthen hbody isElse hotherwise hend ihCondition ihBody ihOtherwise =>
    have hif := Moves.take isIf (by decide)
    have hbranch := (ihCondition.trans (State.moves_expect (by decide) hthen)).trans ihBody
    have helse := (Moves.take isElse (by decide)).trans ihOtherwise
    exact ((hif.trans hbranch).trans helse).trans (State.moves_expect (by decide) hend)
  | comparison noLet noIf hoperands ih => exact ih
  | chain hfirst hrest ihFirst ihRest => exact ihFirst.trans ihRest
  | nothing noOperator => exact .single (.look _)
  | @more levels level state afterOperand after operand steps isOperator hoperand hrest ihOperand
      ihRest =>
    have htake := Moves.take rfl (level.ne_invalid_of_holds isOperator)
    exact (htake.trans ihOperand).trans ihRest
  | literal hnumber ih => exact ih
  | reference isName => exact Moves.take isName (by decide)
  | group isLeft hinner hright ih =>
    have hleft := Moves.take isLeft (by decide)
    exact (hleft.trans ih).trans (State.moves_expect (by decide) hright)
  | invalid isInvalid => exact .single (.skip isInvalid)
  | missing closes => exact Moves.blame 0 (Message.expected_ne_tooDeep _ _) (by simp)
  | misplaced noClose noPrimary noInvalid =>
    rw [State.advance_complain]
    exact Moves.blame 1 (Message.expected_ne_tooDeep _ _) (State.valid_take_one noInvalid)
  | integer isWhole noPoint short => exact Moves.take isWhole (by decide)
  | tooLong isWhole noPoint long =>
    exact Moves.blame 1 (Message.tooLong_ne_tooDeep _) (State.valid_take_one (isWhole ▸ by decide))
  | real isWhole isPoint isFraction touching =>
    have hwhole := Moves.take isWhole (by decide)
    exact (hwhole.trans (Moves.take isPoint (by decide))).trans (Moves.take isFraction (by decide))
  | @spacedReal levels state isWhole isPoint isFraction spaced =>
    exact Moves.blame 3 Message.spacedReal_ne_tooDeep (State.valid_take_succ (isWhole ▸ by decide)
      (State.valid_take_succ (isPoint ▸ by decide) (State.valid_take_one (isFraction ▸ by decide))))
  | noFraction isWhole isPoint noFraction =>
    have hwhole := Moves.take isWhole (by decide)
    have hpoint := Moves.take isPoint (by decide)
    exact (hwhole.trans hpoint).trans (Moves.blame 0 (Message.expected_ne_tooDeep _ _) (by simp))

end Reads

-- That a token is taken, unless the next one closes something. Operators with their operands need
-- not be there.
def Takes : Symbol → State → State → Prop
  | .one _, state, after => state.next.kind.closes = false → after.rest.length < state.rest.length
  | .many _, _, _ => True

theorem State.LeadsTo.length_lt {state after : State} (h : state.advance.LeadsTo after)
    (heof : state.eof.kind = .eof) (hnext : state.next.kind ≠ .eof) :
    after.rest.length < state.rest.length := by
  have hlength := congrArg List.length (State.rest_eq_cons heof hnext)
  have hle := h.rest.length_le
  rw [List.length_cons] at hlength
  omega

namespace Reads

variable {levels : Nat} {symbol : Symbol} {state after : State} {meaning : Meaning symbol}

theorem takes (h : Reads levels symbol state meaning after) (heof : state.eof.kind = .eof) :
    Takes symbol state after := by
  induction h with
  | tooDeep =>
    intro hcloses
    refine (State.LeadsTo.abandon _).length_lt heof ?_
    rintro hend
    rw [hend] at hcloses
    cases hcloses
  | binding isLet hname hequals hbody ih =>
    have hleads := ((State.LeadsTo.expect hname).trans (.expect hequals)).trans hbody.leadsTo
    exact fun _ => hleads.length_lt heof (isLet ▸ by decide)
  | ifThen isIf hcondition hthen hbody noElse hend ihCondition ihBody =>
    have hleads := (hcondition.leadsTo.trans (.expect hthen)).trans hbody.leadsTo
    exact fun _ => (hleads.trans (.expect hend)).length_lt heof (isIf ▸ by decide)
  | ifThenElse isIf hcondition hthen hbody isElse hotherwise hend ihCondition ihBody ihOtherwise =>
    have hbranch := (hcondition.leadsTo.trans (.expect hthen)).trans hbody.leadsTo
    have hleads := (hbranch.trans (.advance _)).trans hotherwise.leadsTo
    exact fun _ => (hleads.trans (.expect hend)).length_lt heof (isIf ▸ by decide)
  | comparison noLet noIf hoperands ih => exact ih heof
  | chain hfirst hrest ihFirst ihRest =>
    exact fun hcloses => Nat.lt_of_le_of_lt hrest.leadsTo.rest.length_le (ihFirst heof hcloses)
  | nothing noOperator => trivial
  | more isOperator hoperand hrest ihOperand ihRest => trivial
  | literal hnumber ih => exact ih heof
  | group isLeft hinner hright ih =>
    exact fun _ => (hinner.leadsTo.trans (.expect hright)).length_lt heof (isLeft ▸ by decide)
  | missing closes => exact fun hcloses => absurd closes (by simp [hcloses])
  | misplaced noClose noPrimary noInvalid =>
    rw [State.advance_complain]
    refine fun _ => (State.LeadsTo.complain _ _ _).length_lt heof ?_
    rintro hend
    rw [hend] at noClose
    cases noClose
  | reference isName => exact fun _ => (State.LeadsTo.refl _).length_lt heof (isName ▸ by decide)
  | invalid isInvalid =>
    exact fun _ => (State.LeadsTo.report _ _).length_lt heof (isInvalid ▸ by decide)
  | integer isWhole noPoint short =>
    exact fun _ => (State.LeadsTo.refl _).length_lt heof (isWhole ▸ by decide)
  | tooLong isWhole noPoint long =>
    exact fun _ => (State.LeadsTo.complain _ _ _).length_lt heof (isWhole ▸ by decide)
  | @real levels state isWhole isPoint isFraction touching =>
    have hleads := (State.LeadsTo.advance state.advance).trans (.advance _)
    exact fun _ => hleads.length_lt heof (isWhole ▸ by decide)
  | @spacedReal levels state isWhole isPoint isFraction spaced =>
    have hleads := (State.LeadsTo.advance state.advance).trans (.advance _)
    exact fun _ => (hleads.trans (.complain _ _ _)).length_lt heof (isWhole ▸ by decide)
  | @noFraction levels state isWhole isPoint noFraction =>
    have hleads := State.LeadsTo.advance state.advance
    exact fun _ => (hleads.trans (.complain _ _ _)).length_lt heof (isWhole ▸ by decide)

end Reads

namespace State

theorem moves_takeExpression {state : State} (heof : state.eof.kind = .eof)
    (habandoned : state.abandoned = false) : Moves state state.takeExpression.2 := by
  have hreads := Rule.expression_reads maxNesting state heof
  simp only [Rule.of] at hreads
  rw [takeExpression_eq habandoned]
  dsimp only
  split
  · rename_i hlength
    have hrest := hreads.leadsTo.rest.eq_of_length hlength
    have hnext : (Rule.expression maxNesting state).2.next = state.next := by
      rw [next, next, hrest, hreads.leadsTo.eof]
    have hcloses : state.next.kind.closes ≠ false := by
      intro hcloses
      have hlt := hreads.takes heof hcloses
      omega
    have hvalid : state.next.kind ≠ .invalid := by
      intro hinvalid
      exact hcloses (hinvalid ▸ rfl)
    split
    · exact hreads.moves.tail (.look _)
    · exact hreads.moves.tail (.take (hnext ▸ hvalid))
  · exact hreads.moves

-- What is left is passed in moves. Once reading was given up, `reported` is set.
theorem moves_leftOver (state : State) (reported : Bool)
    (habandoned : state.abandoned = true → reported = true) :
    Moves state
      { state with
        rest := []
        ahead := true
        reports := (leftOver reported state.rest).reverse ++ state.reports } := by
  induction hrest : state.rest generalizing state reported with
  | nil =>
    have hlook : state.look = { state with
        rest := []
        ahead := true
        reports := (leftOver reported []).reverse ++ state.reports } := by
      simp [look, leftOver, hrest]
    rw [← hlook]
    exact .single (.look state)
  | cons token rest ih =>
    have hnext := next_of_rest hrest
    have hadvance : state.advance.rest = rest := by rw [rest_advance, hrest, List.tail_cons]
    by_cases hinvalid : token.kind = .invalid
    · have hskip : Move state (state.advance.report (invalidCharacter token)) :=
        hnext ▸ Move.skip (hnext ▸ hinvalid)
      have hmoves := ih (state.advance.report (invalidCharacter token)) reported habandoned hadvance
      refine .head hskip ?_
      simpa [leftOver, hinvalid, report, advance] using hmoves
    · have hvalid : state.next.kind ≠ .invalid := hnext ▸ hinvalid
      cases reported with
      | true =>
        have hmoves := ih state.advance true (fun _ => rfl) hadvance
        refine .head (.take hvalid) ?_
        simpa [leftOver, hinvalid, advance] using hmoves
      | false =>
        have hlistening : state.abandoned = false := by simpa using habandoned
        have hblame :
            Move state (state.advance.report (misplaced (Message.leftOver token) token)) := by
          have hmove := Move.blame (Message.leftOver token) 1 (Message.leftOver_ne_tooDeep token)
            (valid_take_one hvalid)
          simpa [advances, complain, advance, hlistening, hnext] using hmove
        have hmoves := ih (state.advance.report (misplaced (Message.leftOver token) token)) true
          (fun _ => rfl) hadvance
        refine .head hblame ?_
        simpa [leftOver, hinvalid, report, advance] using hmoves

theorem moves_expectEnd (state : State) : Moves state state.expectEnd :=
  state.moves_leftOver state.abandoned id

end State

end Parser

-- All that is reported about a source comes from moves through its tokens up to their end.
theorem Reading.moves (source : Source) (file : String) :
    ∃ final : Parser.State, Parser.Moves (.ofLexer { source, file }) final ∧ final.rest = [] ∧
      (ofSource source file).diagnostics = final.reports.reverse := by
  have htaken : Parser.Moves (.ofLexer { source, file }) _ :=
    Parser.State.moves_takeExpression (Lexer.kind_eof _) rfl
  exact ⟨_, htaken.trans (Parser.State.moves_expectEnd _), rfl, rfl⟩

end Calculator
