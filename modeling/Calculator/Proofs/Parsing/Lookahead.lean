import Calculator.Proofs.Parsing.Programs

namespace Calculator

open Calculator.Parser Grammar

-- Some tokens with others in the place of the last `count`.
def splice (count : Nat) (behind tokens : List Token) : List Token :=
  tokens.take (tokens.length - count) ++ behind

theorem splice_cons {count : Nat} {rest : List Token} (h : count ≤ rest.length)
    (behind : List Token) (token : Token) :
    splice count behind (token :: rest) = token :: splice count behind rest := by
  rw [splice, splice, List.length_cons, Nat.succ_sub h, List.take_succ_cons, List.cons_append]

theorem drop_splice {skipped count : Nat} {tokens : List Token}
    (h : skipped + count ≤ tokens.length) (behind : List Token) :
    (splice count behind tokens).drop skipped = splice count behind (tokens.drop skipped) := by
  have hinside : skipped ≤ (tokens.take (tokens.length - count)).length := by
    rw [List.length_take]
    omega
  rw [splice, splice, List.drop_append_of_le_length hinside, List.drop_take, List.length_drop,
    Nat.sub_right_comm]

theorem splitWhile_splice {passes : Token → Bool} {count : Nat} {tokens : List Token}
    (h : count < (tokens.dropWhile passes).length) (behind : List Token) :
    (splice count behind tokens).takeWhile passes = tokens.takeWhile passes ∧
      (splice count behind tokens).dropWhile passes =
        splice count behind (tokens.dropWhile passes) := by
  induction tokens with
  | nil => cases h
  | cons token rest ih =>
    have hall : count < (token :: rest).length :=
      Nat.lt_of_lt_of_le h (List.dropWhile_suffix _).length_le
    rw [splice_cons (Nat.le_of_lt_succ hall)]
    by_cases hpasses : passes token = true
    · rw [List.dropWhile_cons_of_pos hpasses] at h ⊢
      rw [List.dropWhile_cons_of_pos hpasses, List.takeWhile_cons_of_pos hpasses,
        List.takeWhile_cons_of_pos hpasses, (ih h).1, (ih h).2]
      exact ⟨rfl, rfl⟩
    · rw [List.dropWhile_cons_of_neg hpasses, List.dropWhile_cons_of_neg hpasses,
        List.takeWhile_cons_of_neg hpasses, List.takeWhile_cons_of_neg hpasses,
        splice_cons (Nat.le_of_lt_succ hall)]
      exact ⟨rfl, rfl⟩

namespace Parser

-- The state with other tokens and another end in the place of the last `count` tokens and the end.
def State.spliced (count : Nat) (behind : List Token) (eof : Token) (state : State) : State :=
  { state with rest := splice count behind state.rest, eof }

namespace State

-- What is spared at the end of a way was spared on the way.
theorem LeadsTo.spares {state after : State} {count : Nat} (h : state.LeadsTo after)
    (hafter : count < after.rest.length) : count < state.rest.length :=
  Nat.lt_of_lt_of_le hafter h.rest.length_le

variable {count : Nat} (behind : List Token) (eof : Token) {state : State}

theorem length_spliced (h : count < state.rest.length) :
    (state.spliced count behind eof).rest.length + count = state.rest.length + behind.length := by
  rw [spliced, splice, List.length_append, List.length_take]
  omega

theorem rest_spliced {token : Token} {rest : List Token} (hrest : state.rest = token :: rest)
    (h : count < state.rest.length) :
    (state.spliced count behind eof).rest = token :: splice count behind rest := by
  rw [hrest] at h
  rw [spliced, hrest, splice_cons (Nat.le_of_lt_succ h)]

theorem next_spliced (h : count < state.rest.length) :
    (state.spliced count behind eof).next = state.next := by
  obtain ⟨token, rest, hrest⟩ := List.exists_cons_of_length_pos (Nat.zero_lt_of_lt h)
  rw [next_of_rest hrest, next_of_rest (rest_spliced behind eof hrest h)]

theorem advance_spliced (h : count < state.advance.rest.length) :
    (state.spliced count behind eof).advance = state.advance.spliced count behind eof := by
  have hstate := (LeadsTo.advance state).spares h
  obtain ⟨token, rest, hrest⟩ := List.exists_cons_of_length_pos (Nat.zero_lt_of_lt hstate)
  unfold advance
  rw [rest_spliced behind eof hrest hstate, hrest]
  rfl

theorem take_spliced (h : count < state.advance.rest.length) :
    (state.spliced count behind eof).next = state.next ∧
      (state.spliced count behind eof).advance = state.advance.spliced count behind eof :=
  ⟨next_spliced behind eof ((LeadsTo.advance state).spares h), advance_spliced behind eof h⟩

theorem complain_spliced (message : String) (token : Token) (state : State) :
    (state.spliced count behind eof).complain message token =
      (state.complain message token).spliced count behind eof := by
  unfold complain spliced
  dsimp only
  split <;> rfl

theorem skipInvalid_spliced (h : count < state.skipInvalid.rest.length) :
    (state.spliced count behind eof).skipInvalid =
      state.skipInvalid.spliced count behind eof := by
  obtain ⟨htake, hdrop⟩ := splitWhile_splice h behind
  simp only [skipInvalid, spliced, htake, hdrop]

theorem expect_spliced {kind : Kind} {what : String}
    (h : count < (state.expect kind what).2.rest.length) :
    (state.spliced count behind eof).expect kind what =
      ((state.expect kind what).1, (state.expect kind what).2.spliced count behind eof) := by
  unfold expect at h ⊢
  dsimp only at h ⊢
  split at h
  · rename_i hkind
    have hskip := (LeadsTo.advance _).spares h
    rw [skipInvalid_spliced behind eof hskip, next_spliced behind eof hskip, if_pos hkind,
      if_pos hkind, advance_spliced behind eof h]
  · rename_i hkind
    have hskip := (LeadsTo.complain _ _ _).spares h
    rw [skipInvalid_spliced behind eof hskip, next_spliced behind eof hskip, if_neg hkind,
      if_neg hkind, complain_spliced]

end State

namespace Reads

variable {levels : Nat} {symbol : Symbol} {state after : State} {meaning : Meaning symbol}
  {count : Nat}

-- A way that leaves one of the tokens before those that are replaced. What is left at its end tells
-- that every token on the way stood before them, back to the beginning (`LeadsTo.spares`).
theorem spliced (h : Reads levels symbol state meaning after) (hafter : count < after.rest.length)
    (behind : List Token) (eof : Token) :
    Reads levels symbol (state.spliced count behind eof) meaning
      (after.spliced count behind eof) := by
  induction h with
  | tooDeep => cases hafter
  | @binding levels state after name equals body isLet hname hequals hbody ih =>
    subst hname hequals
    have hafterEquals := hbody.leadsTo.spares hafter
    have hafterName := (State.LeadsTo.expect rfl).spares hafterEquals
    have hafterLet := (State.LeadsTo.expect rfl).spares hafterName
    obtain ⟨hlet, hadvance⟩ := State.take_spliced behind eof hafterLet
    have hway := @Reads.binding levels (state.spliced count behind eof)
    rw [hlet, hadvance] at hway
    have hreads := hway isLet (State.expect_spliced behind eof hafterName)
      (State.expect_spliced behind eof hafterEquals) (ih hafter)
    exact hreads
  | @ifThen levels state afterCondition afterBody thenToken endToken condition body isIf hcondition
      hthen hbody noElse hend ihCondition ihBody =>
    subst hthen hend
    have hafterBody := (State.LeadsTo.expect rfl).spares hafter
    have hafterThen := hbody.leadsTo.spares hafterBody
    have hafterCondition := (State.LeadsTo.expect rfl).spares hafterThen
    have hafterIf := hcondition.leadsTo.spares hafterCondition
    obtain ⟨hif, hadvance⟩ := State.take_spliced behind eof hafterIf
    have hway := @Reads.ifThen levels (state.spliced count behind eof)
    rw [hif, hadvance] at hway
    have hreads := hway isIf (ihCondition hafterCondition)
      (State.expect_spliced behind eof hafterThen) (ihBody hafterBody)
      (State.next_spliced behind eof hafterBody ▸ noElse) (State.expect_spliced behind eof hafter)
    exact hreads
  | @ifThenElse levels state afterCondition afterBody afterOtherwise thenToken endToken condition
      body otherwise isIf hcondition hthen hbody isElse hotherwise hend ihCondition ihBody
      ihOtherwise =>
    subst hthen hend
    have hafterOtherwise := (State.LeadsTo.expect rfl).spares hafter
    have hafterElse := hotherwise.leadsTo.spares hafterOtherwise
    have hafterBody := (State.LeadsTo.advance _).spares hafterElse
    have hafterThen := hbody.leadsTo.spares hafterBody
    have hafterCondition := (State.LeadsTo.expect rfl).spares hafterThen
    have hafterIf := hcondition.leadsTo.spares hafterCondition
    obtain ⟨hif, hadvance⟩ := State.take_spliced behind eof hafterIf
    obtain ⟨helse, hadvanceElse⟩ := State.take_spliced behind eof hafterElse
    have hthird := ihOtherwise hafterOtherwise
    rw [← hadvanceElse] at hthird
    have hway := @Reads.ifThenElse levels (state.spliced count behind eof)
    rw [hif, hadvance] at hway
    have hreads := hway isIf (ihCondition hafterCondition)
      (State.expect_spliced behind eof hafterThen) (ihBody hafterBody) (helse ▸ isElse) hthird
      (State.expect_spliced behind eof hafter)
    rw [helse] at hreads
    exact hreads
  | comparison noLet noIf hoperands ih =>
    have hnext := State.next_spliced behind eof (hoperands.leadsTo.spares hafter)
    exact .comparison (hnext ▸ noLet) (hnext ▸ noIf) (ih hafter)
  | chain hfirst hrest ihFirst ihRest =>
    exact .chain (ihFirst (hrest.leadsTo.spares hafter)) (ihRest hafter)
  | nothing noOperator =>
    exact .nothing (State.next_spliced behind eof hafter ▸ noOperator)
  | @more levels level state afterOperand after operand steps isOperator hoperand hrest ihOperand
      ihRest =>
    have hafterOperand := hrest.leadsTo.spares hafter
    have hafterOperator := hoperand.leadsTo.spares hafterOperand
    obtain ⟨hnext, hadvance⟩ := State.take_spliced behind eof hafterOperator
    have hway := @Reads.more levels level (state.spliced count behind eof)
    rw [hnext, hadvance] at hway
    exact hway isOperator (ihOperand hafterOperand) (ihRest hafter)
  | literal hnumber ih => exact .literal (ih hafter)
  | @reference levels state isName =>
    obtain ⟨hnext, hadvance⟩ := State.take_spliced behind eof hafter
    have hway := @Reads.reference levels (state.spliced count behind eof)
    rw [hnext, hadvance] at hway
    exact hway isName
  | @group levels state afterInner right inner isLeft hinner hright ih =>
    subst hright
    have hafterInner := (State.LeadsTo.expect rfl).spares hafter
    have hafterLeft := hinner.leadsTo.spares hafterInner
    obtain ⟨hnext, hadvance⟩ := State.take_spliced behind eof hafterLeft
    have hway := @Reads.group levels (state.spliced count behind eof)
    rw [hnext, hadvance] at hway
    exact hway isLeft (ih hafterInner) (State.expect_spliced behind eof hafter)
  | @invalid levels state isInvalid =>
    obtain ⟨hnext, hadvance⟩ := State.take_spliced behind eof hafter
    have hway := @Reads.invalid levels (state.spliced count behind eof)
    rw [hnext, hadvance] at hway
    exact hway isInvalid
  | @missing levels state closes =>
    have hnext := State.next_spliced behind eof ((State.LeadsTo.complain _ _ _).spares hafter)
    have hway := @Reads.missing levels (state.spliced count behind eof)
    rw [hnext, State.complain_spliced] at hway
    exact hway closes
  | @misplaced levels state noClose noPrimary noInvalid =>
    rw [State.advance_complain] at hafter ⊢
    have hafterNext := (State.LeadsTo.complain _ _ _).spares hafter
    obtain ⟨hnext, hadvance⟩ := State.take_spliced behind eof hafterNext
    have hway := @Reads.misplaced levels (state.spliced count behind eof)
    rw [State.advance_complain, hnext, hadvance, State.complain_spliced] at hway
    exact hway noClose noPrimary noInvalid
  | @integer levels state isWhole noPoint short =>
    obtain ⟨hwhole, hadvance⟩ := State.take_spliced behind eof hafter
    have hpoint := State.next_spliced behind eof hafter
    have hway := @Reads.integer levels (state.spliced count behind eof)
    rw [hwhole, hadvance, hpoint] at hway
    exact hway isWhole noPoint short
  | @tooLong levels state isWhole noPoint long =>
    have hafterWhole := (State.LeadsTo.complain _ _ _).spares hafter
    obtain ⟨hwhole, hadvance⟩ := State.take_spliced behind eof hafterWhole
    have hpoint := State.next_spliced behind eof hafterWhole
    have hway := @Reads.tooLong levels (state.spliced count behind eof)
    rw [hwhole, hadvance, hpoint, State.complain_spliced] at hway
    exact hway isWhole noPoint long
  | @real levels state isWhole isPoint isFraction touching =>
    have hafterPoint := (State.LeadsTo.advance _).spares hafter
    have hafterWhole := (State.LeadsTo.advance _).spares hafterPoint
    obtain ⟨hwhole, hadvance⟩ := State.take_spliced behind eof hafterWhole
    obtain ⟨hpoint, hadvancePoint⟩ := State.take_spliced behind eof hafterPoint
    obtain ⟨hfraction, hadvanceFraction⟩ := State.take_spliced behind eof hafter
    have hway := @Reads.real levels (state.spliced count behind eof)
    rw [hwhole, hadvance, hpoint, hadvancePoint, hfraction, hadvanceFraction] at hway
    exact hway isWhole isPoint isFraction touching
  | @spacedReal levels state isWhole isPoint isFraction spaced =>
    have hafterFraction := (State.LeadsTo.complain _ _ _).spares hafter
    have hafterPoint := (State.LeadsTo.advance _).spares hafterFraction
    have hafterWhole := (State.LeadsTo.advance _).spares hafterPoint
    obtain ⟨hwhole, hadvance⟩ := State.take_spliced behind eof hafterWhole
    obtain ⟨hpoint, hadvancePoint⟩ := State.take_spliced behind eof hafterPoint
    obtain ⟨hfraction, hadvanceFraction⟩ := State.take_spliced behind eof hafterFraction
    have hway := @Reads.spacedReal levels (state.spliced count behind eof)
    rw [hwhole, hadvance, hpoint, hadvancePoint, hfraction, hadvanceFraction,
      State.complain_spliced] at hway
    exact hway isWhole isPoint isFraction spaced
  | @noFraction levels state isWhole isPoint noFraction =>
    have hafterPoint := (State.LeadsTo.complain _ _ _).spares hafter
    have hafterWhole := (State.LeadsTo.advance _).spares hafterPoint
    obtain ⟨hwhole, hadvance⟩ := State.take_spliced behind eof hafterWhole
    obtain ⟨hpoint, hadvancePoint⟩ := State.take_spliced behind eof hafterPoint
    have hfraction := State.next_spliced behind eof hafterPoint
    have hway := @Reads.noFraction levels (state.spliced count behind eof)
    rw [hwhole, hadvance, hpoint, hadvancePoint, hfraction, State.complain_spliced] at hway
    exact hway isWhole isPoint noFraction

end Reads

section Calls

variable {state : State} {count : Nat}

theorem Rule.expression_spliced (levels : Nat) (hended : state.eof.kind = .eof)
    (h : count < (Rule.expression levels state).2.rest.length) (behind : List Token) {eof : Token}
    (heof : eof.kind = .eof) :
    Rule.expression levels (state.spliced count behind eof) =
      ((Rule.expression levels state).1,
        (Rule.expression levels state).2.spliced count behind eof) :=
  (reads_expression_iff heof).mp ((Rule.expression_reads levels state hended).spliced h behind eof)

namespace State

theorem takeExpression_spliced (habandoned : state.abandoned = false)
    (hended : state.eof.kind = .eof) (h : count < state.takeExpression.2.rest.length)
    (behind : List Token) {eof : Token} (heof : eof.kind = .eof) :
    (state.spliced count behind eof).takeExpression =
      (state.takeExpression.1, state.takeExpression.2.spliced count behind eof) := by
  have hstate : count < state.rest.length :=
    (moves_takeExpression hended habandoned).leadsTo.spares h
  have hbefore := length_spliced behind eof hstate
  have hspliced : (state.spliced count behind eof).abandoned = false := habandoned
  have hleads : state.LeadsTo (Rule.expression maxNesting state).2 :=
    (Rule.expression_reads maxNesting state hended).leadsTo
  rcases Nat.lt_or_eq_of_le hleads.rest.length_le with hlt | heq
  · rw [takeExpression_of_lt habandoned hlt] at h ⊢
    have hrule := Rule.expression_spliced maxNesting hended h behind heof
    have hlt' : (Rule.expression maxNesting (state.spliced count behind eof)).2.rest.length <
        (state.spliced count behind eof).rest.length := by
      have hafter := length_spliced behind eof h
      rw [hrule]
      dsimp only
      omega
    rw [takeExpression_of_lt hspliced hlt', hrule]
  · -- the rule took nothing, and the call takes the token that the rule looked at
    rw [takeExpression_of_eq habandoned heq (Nat.zero_lt_of_lt hstate)] at h ⊢
    have hruled := (LeadsTo.advance _).spares h
    have hrule := Rule.expression_spliced maxNesting hended hruled behind heof
    have heq' : (Rule.expression maxNesting (state.spliced count behind eof)).2.rest.length =
        (state.spliced count behind eof).rest.length := by
      have hafter := length_spliced behind eof hruled
      rw [hrule]
      dsimp only
      omega
    rw [takeExpression_of_eq hspliced heq' (by omega), hrule, advance_spliced behind eof h]

end State

end Calls

end Parser

-- Tokens up to the end of a text, with that end behind them.
structure Terminated (tokens : List Token) (eof : Token) : Prop where
  eof : eof.kind = .eof
  tokens : ∀ token ∈ tokens, token.kind ≠ .eof

theorem Lexer.terminated (lexer : Lexer) : Terminated lexer.drain.tokens lexer.drain.eof :=
  ⟨lexer.kind_eof, Lexer.kind_ne_eof⟩

-- Tokens that are the same up to the one behind the first `count` are the same tokens, or the end
-- comes later and only what is behind that one differs.
theorem Terminated.agree {tokens tokens' : List Token} {eof eof' : Token} {count : Nat}
    (h : Terminated tokens eof) (h' : Terminated tokens' eof') (hcount : count ≤ tokens.length)
    (hagree : (tokens ++ [eof]).take (count + 1) = (tokens' ++ [eof']).take (count + 1)) :
    tokens = tokens' ∧ eof = eof' ∨
      count < tokens.length ∧ ∃ behind, tokens' = tokens.take (count + 1) ++ behind := by
  induction tokens generalizing tokens' count with
  | nil =>
    cases tokens' with
    | nil => exact .inl ⟨rfl, (List.cons.inj hagree).1⟩
    | cons token' rest' =>
      obtain rfl : eof = token' := (List.cons.inj hagree).1
      exact absurd h.eof (h'.tokens eof List.mem_cons_self)
  | cons token rest ih =>
    cases tokens' with
    | nil =>
      obtain rfl : token = eof' := (List.cons.inj hagree).1
      exact absurd h'.eof (h.tokens token List.mem_cons_self)
    | cons token' rest' =>
      obtain ⟨rfl, hrest⟩ : token = token' ∧ _ := List.cons.inj hagree
      cases count with
      | zero => exact .inr ⟨Nat.zero_lt_succ _, rest', rfl⟩
      | succ count =>
        have hbehind := ih ⟨h.eof, (List.forall_mem_cons.mp h.tokens).2⟩
          ⟨h'.eof, (List.forall_mem_cons.mp h'.tokens).2⟩ (Nat.le_of_succ_le_succ hcount) hrest
        rcases hbehind with ⟨rfl, rfl⟩ | ⟨hlt, behind, rfl⟩
        · exact .inl ⟨rfl, rfl⟩
        · exact .inr ⟨Nat.succ_lt_succ hlt, behind, rfl⟩

namespace Parser

-- What a call does: it takes `count` tokens, returns `tree` and reports `found`.
structure State.Yields (state : State) (count : Nat) (tree : Expression)
    (found : List Diagnostic) : Prop where
  inside : count ≤ state.rest.length
  expression : state.takeExpression.1 = tree
  left : state.takeExpression.2.rest = state.rest.drop count
  reported : state.takeExpression.2.reports.reverse = state.reports.reverse ++ found

namespace State

variable {count : Nat} {tree : Expression} {found : List Diagnostic}

theorem leadsTo_takeExpression {state : State} (hended : state.eof.kind = .eof) :
    LeadsTo { state with abandoned := false } state.takeExpression.2 := by
  have hmoves : Moves { state with abandoned := false } state.takeExpression.2 :=
    moves_takeExpression hended rfl
  exact hmoves.leadsTo

theorem exists_yields {state : State} (hended : state.eof.kind = .eof) :
    ∃ count tree found, state.Yields count tree found := by
  have hleads := leadsTo_takeExpression hended
  obtain ⟨found, hfound⟩ := hleads.reports
  refine ⟨state.rest.length - state.takeExpression.2.rest.length, state.takeExpression.1,
    found.reverse, Nat.sub_le _ _, rfl, List.suffix_iff_eq_drop.mp hleads.rest, ?_⟩
  rw [← hfound, List.reverse_append]

theorem yields_fresh_iff (tokens : List Token) (eof : Token) (held : List Diagnostic)
    (quit : Bool) :
    ({ rest := tokens, eof, reports := held, abandoned := quit } : State).Yields count tree found ↔
      ({ rest := tokens, eof } : State).Yields count tree found := by
  have hforgets :
      ({ rest := tokens, eof, reports := held, abandoned := quit } : State).takeExpression =
        (({ rest := tokens, eof } : State).takeExpression.1,
          ({ rest := tokens, eof } : State).takeExpression.2.behind held) :=
    takeExpression_forgets held { rest := tokens, eof }
  constructor
  · rintro ⟨hinside, hexpression, hleft, hreported⟩
    rw [hforgets] at hexpression hleft hreported
    refine ⟨hinside, hexpression, hleft, ?_⟩
    simpa [behind] using hreported
  · rintro ⟨hinside, hexpression, hleft, hreported⟩
    refine ⟨hinside, ?_, ?_, ?_⟩
    · rw [hforgets]
      exact hexpression
    · rw [hforgets]
      exact hleft
    · rw [hforgets]
      simpa [behind] using hreported

theorem Yields.elsewhere_fresh {tokens tokens' : List Token} {eof eof' : Token}
    (h : Terminated tokens eof) (h' : Terminated tokens' eof')
    (hyields : ({ rest := tokens, eof } : State).Yields count tree found)
    (hagree : (tokens ++ [eof]).take (count + 1) = (tokens' ++ [eof']).take (count + 1)) :
    ({ rest := tokens', eof := eof' } : State).Yields count tree found := by
  rcases h.agree h' hyields.inside hagree with ⟨rfl, rfl⟩ | ⟨hlt, behind, rfl⟩
  · exact hyields
  · obtain ⟨-, hexpression, hleft, hreported⟩ := hyields
    have hleft : ({ rest := tokens, eof } : State).takeExpression.2.rest = tokens.drop count :=
      hleft
    -- all but the tokens that are taken and the one behind them
    let spared := tokens.length - (count + 1)
    have hspliced : splice spared behind tokens = tokens.take (count + 1) ++ behind := by
      rw [splice, Nat.sub_sub_self hlt]
    have hspares : spared < ({ rest := tokens, eof } : State).takeExpression.2.rest.length := by
      rw [hleft, List.length_drop]
      omega
    have hcall := takeExpression_spliced rfl h.eof hspares behind h'.eof
    have hstate : ({ rest := tokens, eof } : State).spliced spared behind eof' =
        { rest := tokens.take (count + 1) ++ behind, eof := eof' } := by
      rw [← hspliced]
      rfl
    rw [hstate] at hcall
    refine ⟨?_, hcall ▸ hexpression, ?_, hcall ▸ hreported⟩
    · rw [List.length_append, List.length_take]
      omega
    · rw [hcall, ← hspliced, drop_splice (by omega), ← hleft]
      rfl

theorem Yields.elsewhere {tokens tokens' : List Token} {eof eof' : Token}
    {held : List Diagnostic} {quit : Bool} (h : Terminated tokens eof)
    (h' : Terminated tokens' eof')
    (hyields :
      ({ rest := tokens, eof, reports := held, abandoned := quit } : State).Yields count tree found)
    (hagree : (tokens ++ [eof]).take (count + 1) = (tokens' ++ [eof']).take (count + 1))
    (held' : List Diagnostic) (quit' : Bool) :
    ({ rest := tokens', eof := eof', reports := held', abandoned := quit' } : State).Yields
      count tree found := by
  rw [yields_fresh_iff] at hyields ⊢
  exact hyields.elsewhere_fresh h h' hagree

end State

-- What a call of a parser does: it takes `count` tokens, returns `tree` and reports `found`.
structure Yields (parser : Parser) (count : Nat) (tree : Expression) (found : List Diagnostic) :
    Prop where
  inside : count ≤ parser.lexer.drain.tokens.length
  expression : parser.takeExpression.1 = tree
  left : parser.takeExpression.2.lexer.drain.tokens = parser.lexer.drain.tokens.drop count
  reported : parser.takeExpression.2.diagnostics = parser.diagnostics ++ found

theorem yields_iff {parser : Parser} {count : Nat} {tree : Expression} {found : List Diagnostic} :
    parser.Yields count tree found ↔ parser.state.Yields count tree found := by
  have hleads : State.LeadsTo { parser.state with abandoned := false }
      parser.state.takeExpression.2 := State.leadsTo_takeExpression parser.lexer.kind_eof
  obtain ⟨taken, htaken⟩ := hleads.rest
  have hleft : parser.takeExpression.2.lexer.drain.tokens = parser.state.takeExpression.2.rest :=
    drain_settle htaken.symm
  have hheld : parser.state.reports.reverse = parser.diagnostics := List.reverse_reverse _
  constructor
  · rintro ⟨hinside, hexpression, hbehind, hreported⟩
    exact ⟨hinside, hexpression, hleft.symm.trans hbehind, by rw [hheld]; exact hreported⟩
  · rintro ⟨hinside, hexpression, hbehind, hreported⟩
    exact ⟨hinside, hexpression, hleft.trans hbehind, by rw [← hheld]; exact hreported⟩

end Parser

-- A call takes some tokens from the front of those that are left, returns an expression and reports
-- what it found. If it is called where other tokens are left of which as many are the same, and the
-- one behind them too, it takes as many, returns the same and reports the same, whatever comes
-- behind and whatever was before. The end of the text counts as a token there.
theorem call_looks_one_token_ahead :
    (∀ parser : Parser, ∃ count tree found, parser.Yields count tree found) ∧
    (∀ (parser parser' : Parser) (count : Nat) (tree : Expression) (found : List Diagnostic),
      parser.Yields count tree found →
        parser.lexer.tokenize.1.take (count + 1) = parser'.lexer.tokenize.1.take (count + 1) →
          parser'.Yields count tree found) ∧
    ∀ (tokens tokens' : List Token) (eof eof' : Token) (held held' : List Diagnostic)
      (quit quit' : Bool) (count : Nat) (tree : Expression) (found : List Diagnostic),
      Terminated tokens eof → Terminated tokens' eof' →
        ({ rest := tokens, eof, reports := held, abandoned := quit } : State).Yields
          count tree found →
        (tokens ++ [eof]).take (count + 1) = (tokens' ++ [eof']).take (count + 1) →
          ({ rest := tokens', eof := eof', reports := held', abandoned := quit' } : State).Yields
            count tree found := by
  refine ⟨fun parser => ?_, fun parser parser' count tree found hyields hagree => ?_, ?_⟩
  · obtain ⟨count, tree, found, hyields⟩ := @State.exists_yields parser.state parser.lexer.kind_eof
    exact ⟨count, tree, found, Parser.yields_iff.mpr hyields⟩
  · rw [Parser.yields_iff] at hyields ⊢
    exact hyields.elsewhere parser.lexer.terminated parser'.lexer.terminated hagree _ _
  · intro tokens tokens' eof eof' held held' quit quit' count tree found h h' hyields hagree
    exact hyields.elsewhere h h' hagree held' quit'

-- Without a digit behind the point, the call reports that at the `a` and stops there.
theorem call_looks_at_name :
    let parser (text : String) : Parser := { lexer := { source := .ofString text, file := "f" } }
    ∃ tree found, (parser "1 . a b").Yields 2 tree found ∧ (parser "1 . a )").Yields 2 tree found ∧
      found.length = 1 := by
  intro parser
  have hyields : (parser "1 . a b").Yields 2 (parser "1 . a b").takeExpression.1
      (parser "1 . a b").takeExpression.2.diagnostics :=
    ⟨by cbv, rfl, by cbv, rfl⟩
  have hagree : (parser "1 . a b").lexer.tokenize.1.take 3 =
      (parser "1 . a )").lexer.tokenize.1.take 3 := by cbv
  obtain ⟨_, hparsers, _⟩ := call_looks_one_token_ahead
  exact ⟨_, _, hyields, hparsers _ _ 2 _ _ hyields hagree, by cbv⟩

end Calculator
