import Calculator.Proofs.Parsing.Reads

namespace Calculator.Parser

open Grammar

-- A state of a reading that goes well.
structure State.Intact (state : State) : Prop where
  eof : state.eof.kind = .eof
  abandoned : state.abandoned = false

namespace State.Intact

variable {state : State}

theorem advance (h : state.Intact) : state.advance.Intact := ⟨h.eof, h.abandoned⟩

theorem look (h : state.Intact) : state.look.Intact := ⟨h.eof, h.abandoned⟩

theorem takes {kind : Kind} (h : state.Intact) (hkind : state.next.kind = kind)
    (hend : kind ≠ .eof) :
    state.rest = state.next :: state.advance.rest :=
  State.rest_eq_cons h.eof (hkind ▸ hend)

theorem expect {kind : Kind} {what : String} {taken : Token × State} (h : state.Intact)
    (hexpect : state.expect kind what = taken) (hwanted : kind ≠ .invalid ∧ kind ≠ .eof)
    (hquiet : taken.2.reports.length ≤ state.reports.length) :
    taken.2.Intact ∧ taken.1.kind = kind ∧ state.rest = taken.1 :: taken.2.rest := by
  subst hexpect
  have hkind := State.next_of_expect h.abandoned hquiet
  rw [State.expect_of_next what hwanted.1 hkind]
  exact ⟨h.advance, hkind, h.takes hkind hwanted.2⟩

end State.Intact

-- What was read is derived by the grammar.
structure Derives (levels : Nat) {symbol : Symbol} (state : State) (meaning : Meaning symbol)
    (after : State) (d : Derivation symbol) : Prop where
  intact : after.Intact
  tree : d.tree = meaning
  tokens : state.rest = d.tokens ++ after.rest
  admissible : d.Admissible
  depth : d.depth ≤ levels

theorem not_complain_le {state : State} {message : String} {token : Token} (h : state.Intact) :
    ¬(state.complain message token).reports.length ≤ state.reports.length := by
  rw [State.reports_complain _ _ h.abandoned, List.length_cons]
  omega

-- That reading which reports nothing reads a derivation.
def Sound (levels : Nat) {symbol : Symbol} (state : State) (meaning : Meaning symbol)
    (after : State) : Prop :=
  state.Intact → after.reports.length ≤ state.reports.length →
    ∃ d, Derives levels state meaning after d

namespace Sound

variable {levels : Nat}

theorem branch {state afterCondition afterBody : State} {thenToken : Token × State}
    {condition body : Expression}
    (hcondition : Reads levels (.one .expression) state condition afterCondition)
    (hthen : afterCondition.expect .thenWord "'then'" = thenToken)
    (hbody : Reads levels (.one .expression) thenToken.2 body afterBody)
    (ihCondition : @Sound levels (.one .expression) state condition afterCondition)
    (ihBody : @Sound levels (.one .expression) thenToken.2 body afterBody)
    (hintact : state.Intact) (hquiet : afterBody.reports.length ≤ state.reports.length) :
    ∃ c b : Derivation (.one .expression), (c.tree = condition ∧ b.tree = body) ∧
      thenToken.1.kind = .thenWord ∧
      state.rest = c.tokens ++ thenToken.1 :: (b.tokens ++ afterBody.rest) ∧
      (c.Admissible ∧ b.Admissible) ∧ max c.depth b.depth ≤ levels ∧ afterBody.Intact := by
  have hquietCondition := hcondition.leadsTo.length_le
  have hquietThen := (State.LeadsTo.expect hthen).length_le
  have hquietBody := hbody.leadsTo.length_le
  obtain ⟨c, hc⟩ := ihCondition hintact (by omega)
  obtain ⟨hafterThen, isThen, hrestThen⟩ :=
    hc.intact.expect hthen (by decide) (by omega)
  obtain ⟨b, hb⟩ := ihBody hafterThen (by omega)
  refine ⟨c, b, ⟨hc.tree, hb.tree⟩, isThen, ?_, ⟨hc.admissible, hb.admissible⟩,
    Nat.max_le.mpr ⟨hc.depth, hb.depth⟩, hb.intact⟩
  rw [hc.tokens, hrestThen, hb.tokens]

end Sound

namespace Reads

variable {levels : Nat} {symbol : Symbol} {state after : State} {meaning : Meaning symbol}

-- What is read without a report is derived.
theorem derivation (h : Reads levels symbol state meaning after) :
    Sound levels state meaning after := by
  intro hintact hquiet
  induction h with
  | tooDeep => exact absurd hquiet (not_complain_le hintact)
  | @binding levels state after name equals body isLet hname hequals hbody ih =>
    have hquietName : state.reports.length ≤ _ := (State.LeadsTo.expect hname).length_le
    have hquietEquals := (State.LeadsTo.expect hequals).length_le
    have hquietBody := hbody.leadsTo.length_le
    obtain ⟨hafterName, isName, hrestName⟩ := hintact.advance.expect hname (by decide)
      (by rw [State.reports_advance]; omega)
    obtain ⟨hafterEquals, isEquals, hrestEquals⟩ :=
      hafterName.expect hequals (by decide) (by omega)
    obtain ⟨d, hd⟩ := ih hafterEquals (by omega)
    refine ⟨.binding state.next name.1 equals.1 d isLet isName isEquals, hd.intact, ?_, ?_,
      hd.admissible, Nat.succ_le_succ hd.depth⟩
    · rw [Derivation.tree, hd.tree]
    · rw [hintact.takes isLet (by decide), hrestName, hrestEquals, hd.tokens]
      rfl
  | @ifThen levels state afterCondition afterBody thenToken endToken condition body isIf hcondition
      hthen hbody noElse hend ihCondition ihBody =>
    have hquietBranch : state.reports.length ≤ afterBody.reports.length :=
      ((hcondition.leadsTo.trans (.expect hthen)).trans hbody.leadsTo).length_le
    have hquietEnd := (State.LeadsTo.expect hend).length_le
    obtain ⟨c, b, ⟨hc, hb⟩, isThen, hrest, hadmissible, hdepth, hafterBody⟩ :=
      Sound.branch hcondition hthen hbody ihCondition ihBody hintact.advance
        (by rw [State.reports_advance]; omega)
    obtain ⟨hafterEnd, isEnd, hrestEnd⟩ := hafterBody.expect hend (by decide) (by omega)
    refine ⟨.ifThen state.next c thenToken.1 b endToken.1 isIf isThen isEnd, hafterEnd, ?_, ?_,
      hadmissible, Nat.succ_le_succ hdepth⟩
    · rw [Derivation.tree, hc, hb]
    · rw [hintact.takes isIf (by decide), hrest, hrestEnd]
      simp [Derivation.tokens]
  | @ifThenElse levels state afterCondition afterBody afterOtherwise thenToken endToken condition
      body otherwise isIf hcondition hthen hbody isElse hotherwise hend ihCondition ihBody
      ihOtherwise =>
    have hquietBranch : state.reports.length ≤ afterBody.reports.length :=
      ((hcondition.leadsTo.trans (.expect hthen)).trans hbody.leadsTo).length_le
    have hquietOtherwise : afterBody.reports.length ≤ _ := hotherwise.leadsTo.length_le
    have hquietEnd := (State.LeadsTo.expect hend).length_le
    obtain ⟨c, b, ⟨hc, hb⟩, isThen, hrest, hadmissible, hdepth, hafterBody⟩ :=
      Sound.branch hcondition hthen hbody ihCondition ihBody hintact.advance
        (by rw [State.reports_advance]; omega)
    obtain ⟨o, ho⟩ := ihOtherwise hafterBody.advance (by rw [State.reports_advance]; omega)
    obtain ⟨hafterEnd, isEnd, hrestEnd⟩ := ho.intact.expect hend (by decide) (by omega)
    have hdepthOtherwise := ho.depth
    have hdepthAll : max c.depth (max b.depth o.depth) ≤ levels := by omega
    refine ⟨.ifThenElse state.next c thenToken.1 b afterBody.next o endToken.1 isIf isThen isElse
      isEnd, hafterEnd, ?_, ?_, ⟨hadmissible.1, hadmissible.2, ho.admissible⟩,
      Nat.succ_le_succ hdepthAll⟩
    · rw [Derivation.tree, hc, hb, ho.tree]
    · rw [hintact.takes isIf (by decide), hrest, hafterBody.takes isElse (by decide), ho.tokens,
        hrestEnd]
      simp [Derivation.tokens]
  | comparison noLet noIf hoperands ih =>
    obtain ⟨d, hd⟩ := ih hintact hquiet
    exact ⟨.comparison d, hd.intact, hd.tree, hd.tokens, hd.admissible,
      Nat.succ_le_succ hd.depth⟩
  | chain hfirst hrest ihFirst ihRest =>
    have hquietFirst := hfirst.leadsTo.length_le
    have hquietRest := hrest.leadsTo.length_le
    obtain ⟨f, hf⟩ := ihFirst hintact (by omega)
    obtain ⟨r, hr⟩ := ihRest hf.intact (by omega)
    refine ⟨.chain f r, hr.intact, ?_, ?_, ⟨hf.admissible, hr.admissible⟩,
      Nat.max_le.mpr ⟨hf.depth, hr.depth⟩⟩
    · rw [Derivation.tree, hf.tree, hr.tree]
    · rw [Derivation.tokens, hf.tokens, hr.tokens, List.append_assoc]
  | nothing noOperator =>
    exact ⟨.nothing, hintact.look, rfl, rfl, trivial, Nat.zero_le _⟩
  | @more levels level state afterOperand after operand steps isOperator hoperand hrest ihOperand
      ihRest =>
    have hquietOperand : state.reports.length ≤ _ := hoperand.leadsTo.length_le
    have hquietRest := hrest.leadsTo.length_le
    obtain ⟨o, ho⟩ := ihOperand hintact.advance (by rw [State.reports_advance]; omega)
    obtain ⟨r, hr⟩ := ihRest ho.intact (by omega)
    refine ⟨.more state.next o r isOperator, hr.intact, ?_, ?_, ⟨ho.admissible, hr.admissible⟩,
      Nat.max_le.mpr ⟨ho.depth, hr.depth⟩⟩
    · rw [Derivation.tree, ho.tree, hr.tree]
    · rw [hintact.takes rfl (level.ne_eof_of_holds isOperator), ho.tokens, hr.tokens]
      simp [Derivation.tokens]
  | literal hnumber ih =>
    obtain ⟨d, hd⟩ := ih hintact hquiet
    exact ⟨.literal d, hd.intact, hd.tree, hd.tokens, hd.admissible, hd.depth⟩
  | @reference levels state isName =>
    exact ⟨.reference state.next isName, hintact.advance, rfl, hintact.takes isName (by decide),
      trivial, Nat.zero_le _⟩
  | @group levels state afterInner right inner isLeft hinner hright ih =>
    have hquietInner : state.reports.length ≤ _ := hinner.leadsTo.length_le
    have hquietRight := (State.LeadsTo.expect hright).length_le
    obtain ⟨i, hi⟩ := ih hintact.advance (by rw [State.reports_advance]; omega)
    obtain ⟨hafterRight, isRight, hrestRight⟩ :=
      hi.intact.expect hright (by decide) (by omega)
    refine ⟨.group state.next i right.1 isLeft isRight, hafterRight, hi.tree, ?_, hi.admissible,
      hi.depth⟩
    rw [hintact.takes isLeft (by decide), hi.tokens, hrestRight]
    simp [Derivation.tokens]
  | invalid isInvalid =>
    simp only [State.reports_report, State.reports_advance, List.length_cons] at hquiet
    omega
  | missing closes => exact absurd hquiet (not_complain_le hintact)
  | misplaced noClose noPrimary noInvalid => exact absurd hquiet (not_complain_le hintact)
  | integer isWhole noPoint short =>
    refine ⟨.integer _ isWhole, hintact.advance, rfl, hintact.takes isWhole (by decide), ?_,
      Nat.zero_le _⟩
    rwa [String.length_toList] at short
  | tooLong isWhole noPoint long => exact absurd hquiet (not_complain_le hintact.advance)
  | @real levels state isWhole isPoint isFraction touching =>
    refine ⟨.real _ _ _ isWhole isPoint isFraction, hintact.advance.advance.advance, rfl, ?_, ?_,
      Nat.zero_le _⟩
    · rw [hintact.takes isWhole (by decide), hintact.advance.takes isPoint (by decide),
        hintact.advance.advance.takes isFraction (by decide)]
      rfl
    · simp only [Rule.touching, Bool.and_eq_true, decide_eq_true_eq] at touching
      exact touching
  | spacedReal isWhole isPoint isFraction spaced =>
    exact absurd hquiet (not_complain_le hintact.advance.advance.advance)
  | noFraction isWhole isPoint noFraction =>
    exact absurd hquiet (not_complain_le hintact.advance.advance)

end Reads

end Calculator.Parser
