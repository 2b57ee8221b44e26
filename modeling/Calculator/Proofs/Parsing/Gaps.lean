import Calculator.Proofs.Parsing.Extension

namespace Calculator.Grammar

-- A construct without the token that closes it.
inductive Tip where
  | group (left : Token) (inner : Derivation (.one .expression)) (isLeft : left.kind = .leftParen)
  | ifThen (ifToken : Token) (condition : Derivation (.one .expression)) (thenToken : Token)
      (body : Derivation (.one .expression)) (isIf : ifToken.kind = .ifWord)
      (isThen : thenToken.kind = .thenWord)
  | ifThenElse (ifToken : Token) (condition : Derivation (.one .expression)) (thenToken : Token)
      (body : Derivation (.one .expression)) (elseToken : Token)
      (otherwise : Derivation (.one .expression)) (isIf : ifToken.kind = .ifWord)
      (isThen : thenToken.kind = .thenWord) (isElse : elseToken.kind = .elseWord)

namespace Tip

def nonterminal : Tip → Nonterminal
  | group .. => .primary
  | ifThen .. | ifThenElse .. => .expression

def tokens : Tip → List Token
  | group left inner _ => left :: inner.tokens
  | ifThen ifToken condition thenToken body _ _ =>
    ifToken :: (condition.tokens ++ thenToken :: body.tokens)
  | ifThenElse ifToken condition thenToken body elseToken otherwise _ _ _ =>
    ifToken :: (condition.tokens ++ thenToken :: (body.tokens ++ elseToken :: otherwise.tokens))

def Admissible : Tip → Prop
  | group _ inner _ => inner.Admissible
  | ifThen _ condition _ body _ _ => condition.Admissible ∧ body.Admissible
  | ifThenElse _ condition _ body _ otherwise _ _ _ =>
    condition.Admissible ∧ body.Admissible ∧ otherwise.Admissible

def closing : Tip → Kind
  | group .. => .rightParen
  | ifThen .. | ifThenElse .. => .endWord

-- The kinds of tokens behind it that it goes on with.
def accepts : Tip → Kind → Bool
  | ifThen .., kind => kind = .endWord || kind = .elseWord
  | tip, kind => kind = tip.closing

theorem accepts_eq_false {tip : Tip} {kind : Kind} (hclosing : kind ≠ tip.closing)
    (helse : kind ≠ .elseWord) : tip.accepts kind = false := by
  cases tip <;> simp_all [accepts, closing]

theorem begins (tip : Tip) :
    ∃ token rest, tip.tokens = token :: rest ∧ tip.nonterminal.begins token.kind = true := by
  cases tip with
  | group left inner isLeft => exact ⟨left, _, rfl, by rw [isLeft]; rfl⟩
  | ifThen ifToken condition thenToken body isIf isThen =>
    exact ⟨ifToken, _, rfl, by rw [isIf]; rfl⟩
  | ifThenElse ifToken condition thenToken body elseToken otherwise isIf isThen isElse =>
    exact ⟨ifToken, _, rfl, by rw [isIf]; rfl⟩

theorem filled {tip : Tip} (hadmissible : tip.Admissible) (token : Token)
    (htoken : token.kind = tip.closing) :
    Derived (.one tip.nonterminal) (tip.tokens ++ [token]) := by
  cases tip with
  | group left inner isLeft => exact ⟨.group left inner token isLeft htoken, hadmissible, rfl⟩
  | ifThen ifToken condition thenToken body isIf isThen =>
    refine ⟨.ifThen ifToken condition thenToken body token isIf isThen htoken, hadmissible, ?_⟩
    simp [Derivation.tokens, tokens]
  | ifThenElse ifToken condition thenToken body elseToken otherwise isIf isThen isElse =>
    refine ⟨.ifThenElse ifToken condition thenToken body elseToken otherwise token isIf isThen
      isElse htoken, hadmissible, ?_⟩
    simp [Derivation.tokens, tokens]

end Tip

end Calculator.Grammar

namespace Calculator.Parser

open Grammar

-- A closing token that is missing is reported where its construct cannot go on, unless reading is
-- given up before.
namespace Falters

variable {levels : Nat} {behind : List Token}

theorem mono {symbol : Symbol} {tokens : List Token} {deep deep' : Prop}
    {repairs repairs' : Meaning symbol → Diagnostic → Prop}
    (h : Falters levels symbol tokens behind repairs deep)
    (hrepairs : ∀ meaning d, repairs meaning d → repairs' meaning d) (hdeep : deep → deep') :
    Falters levels symbol tokens behind repairs' deep' := by
  intro state hstate hrest
  rcases h state hstate hrest with ⟨meaning, d, after, hmakes, hd, hresumes⟩ | ⟨hgiven, hgives⟩
  · exact .inl ⟨meaning, d, after, hmakes, hrepairs meaning d hd, hresumes⟩
  · exact .inr ⟨hdeep hgiven, hgives⟩

theorem missingParen {left : Token} {inner : Derivation (.one .expression)}
    (isLeft : left.kind = .leftParen) (hadmissible : inner.Admissible)
    (hbehind : inner.Closed ∨ (Symbol.one .expression).Ends behind)
    (hnext : ∀ token ∈ behind.head?, token.kind ≠ .invalid ∧ token.kind ≠ .rightParen) :
    Falters levels (.one .primary) (left :: inner.tokens) behind (fun _ _ => True) True := by
  intro state hstate hrest
  have hleft := Passes.advance hrest
  have hkind : state.next.kind = .leftParen := State.next_of_rest hrest ▸ isLeft
  simp only [Makes, Leaves, Rule.of, Rule.primary, hkind, Rule.parenthesized]
  rcases inner.read_or_givenUp hadmissible hbehind levels hstate.advance hleft.rest with
    ⟨after, hinner, hpasses⟩ | ⟨token, hgives⟩
  · have hread := hleft.trans hpasses
    obtain ⟨d, last, hexpect, hresumes, _⟩ := State.expect_missing .rightParen
      "')' after expression" (hread.intact hstate) hread.rest hnext (by decide)
    rw [hinner, hexpect]
    exact .inl ⟨_, d, last, rfl, trivial, .of_passes hread hresumes⟩
  · exact .inr ⟨trivial, token, (hgives.of_passes hleft).moves hstate.eof
      (State.moves_expect (by decide) rfl)⟩

theorem missingEnd {ifToken thenToken : Token} {condition body : Derivation (.one .expression)}
    (isIf : ifToken.kind = .ifWord) (isThen : thenToken.kind = .thenWord)
    (hcondition : condition.Admissible) (hbody : body.Admissible)
    (hends : (Symbol.one .expression).Ends behind)
    (hnext : ∀ token ∈ behind.head?, token.kind ≠ .invalid ∧ token.kind ≠ .endWord)
    (helse : ∀ token ∈ behind.head?, token.kind ≠ .elseWord) :
    Falters levels (.one .expression) (ifToken :: (condition.tokens ++ thenToken :: body.tokens))
      behind (fun _ _ => True) True := by
  intro state hstate hrest
  cases levels with
  | zero => exact .inr ⟨trivial, _, Rule.tooDeep_givesUp hstate⟩
  | succ levels =>
    simp only [List.cons_append, List.append_assoc] at hrest
    have hkind : state.next.kind = .ifWord := State.next_of_rest hrest ▸ isIf
    simp only [Makes, Leaves, Rule.of, Rule.expression, hkind]
    rcases Derivation.branch_read_or_givenUp isThen hcondition hbody hends levels hstate
      (Passes.advance hrest).rest with ⟨after, hfinish, hpasses⟩ | hgives
    · have hafter := hpasses.intact hstate
      obtain ⟨d, last, hexpect, hresumes, _⟩ :=
        State.expect_missing .endWord "'end'" hafter hpasses.rest hnext (by decide)
      have hnoElse := State.next_kind_ne hafter.eof (hpasses.rest ▸ helse) (by decide)
      rw [hfinish, Rule.finish_of_no_else hnoElse, hexpect]
      exact .inl ⟨_, d, last, rfl, trivial, .of_passes hpasses hresumes⟩
    · exact .inr ⟨trivial, hgives⟩

theorem missingEnd_else {ifToken thenToken elseToken : Token}
    {condition body otherwise : Derivation (.one .expression)}
    (isIf : ifToken.kind = .ifWord) (isThen : thenToken.kind = .thenWord)
    (isElse : elseToken.kind = .elseWord) (hcondition : condition.Admissible)
    (hbody : body.Admissible) (hotherwise : otherwise.Admissible)
    (hends : (Symbol.one .expression).Ends behind)
    (hnext : ∀ token ∈ behind.head?, token.kind ≠ .invalid ∧ token.kind ≠ .endWord) :
    Falters levels (.one .expression) (ifToken :: (condition.tokens ++ thenToken :: (body.tokens ++
      elseToken :: otherwise.tokens))) behind (fun _ _ => True) True := by
  intro state hstate hrest
  cases levels with
  | zero => exact .inr ⟨trivial, _, Rule.tooDeep_givesUp hstate⟩
  | succ levels =>
    simp only [List.cons_append, List.append_assoc] at hrest
    have hkind : state.next.kind = .ifWord := State.next_of_rest hrest ▸ isIf
    simp only [Makes, Leaves, Rule.of, Rule.expression, hkind]
    rcases Derivation.branch_read_or_givenUp isThen hcondition hbody
      (Symbol.ends_of_closes (Symbol.closes_of_kind isElse rfl)) levels hstate
      (Passes.advance hrest).rest with ⟨middle, hfinish, hpasses⟩ | hgives
    · have helse := hpasses.trans (.advance hpasses.rest)
      rw [hfinish]
      rcases otherwise.read_or_givenUp hotherwise (.inr hends) levels (helse.intact hstate)
        helse.rest with ⟨after, hafter, hpassesOtherwise⟩ | ⟨token, hgives⟩
      · have hread := helse.trans hpassesOtherwise
        obtain ⟨d, last, hexpect, hresumes, _⟩ := State.expect_missing .endWord "'end'"
          (hread.intact hstate) hread.rest hnext (by decide)
        rw [Rule.finish_of_else hpasses.rest isElse hafter, hexpect]
        exact .inl ⟨_, d, last, rfl, trivial, .of_passes hread hresumes⟩
      · rw [Rule.finish_of_else hpasses.rest isElse rfl]
        exact .inr ⟨trivial, token, (hgives.of_passes helse).moves hstate.eof
          (State.moves_expect (by decide) rfl)⟩
    · exact .inr ⟨trivial, hgives⟩

end Falters

end Calculator.Parser

namespace Calculator.Grammar

open Calculator.Parser

-- In front of a token that closes another construct, a tip is reported.
theorem Tip.falters {tip : Tip} (hadmissible : tip.Admissible) (levels : Nat) {behind : List Token}
    (hbehind : ∀ token ∈ behind.head?, token.kind.closes = true ∧ tip.accepts token.kind = false) :
    Falters levels (.one tip.nonterminal) tip.tokens behind (fun _ _ => True) True := by
  have hends : (Symbol.one .expression).Ends behind := fun token htoken =>
    Symbol.extendedBy_of_closes (hbehind token htoken).1
  have hvalid : ∀ token ∈ behind.head?, token.kind ≠ .invalid := by
    intro token htoken hkind
    have hcloses := (hbehind token htoken).1
    rw [hkind] at hcloses
    cases hcloses
  cases tip with
  | group left inner isLeft =>
    exact .missingParen isLeft hadmissible (.inr hends) fun token htoken =>
      ⟨hvalid token htoken, of_decide_eq_false (hbehind token htoken).2⟩
  | ifThen ifToken condition thenToken body isIf isThen =>
    have hother : ∀ token ∈ behind.head?, token.kind ≠ .endWord ∧ token.kind ≠ .elseWord := by
      intro token htoken
      simpa [accepts] using (hbehind token htoken).2
    exact .missingEnd isIf isThen hadmissible.1 hadmissible.2 hends
      (fun token htoken => ⟨hvalid token htoken, (hother token htoken).1⟩)
      (fun token htoken => (hother token htoken).2)
  | ifThenElse ifToken condition thenToken body elseToken otherwise isIf isThen isElse =>
    exact .missingEnd_else isIf isThen isElse hadmissible.1 hadmissible.2.1 hadmissible.2.2 hends
      fun token htoken => ⟨hvalid token htoken, of_decide_eq_false (hbehind token htoken).2⟩

-- The way from a symbol down to the last nonterminal of a derivation, and the tokens in front of
-- that. It leaves room for so many levels of nesting.
inductive Path : Nat → Symbol → Nat → Nonterminal → List Token → Prop where
  | here {levels : Nat} {nonterminal : Nonterminal} :
      Path levels (.one nonterminal) levels nonterminal []
  | binding {levels levels' : Nat} {nonterminal : Nonterminal} {letToken name equals : Token}
      {front : List Token} (isLet : letToken.kind = .letWord) (isName : name.kind = .identifier)
      (isEquals : equals.kind = .equals)
      (path : Path levels (.one .expression) levels' nonterminal front) :
      Path (levels + 1) (.one .expression) levels' nonterminal (letToken :: name :: equals :: front)
  | comparison {levels levels' : Nat} {nonterminal : Nonterminal} {front : List Token}
      (path : Path levels (.one (.chain .comparison)) levels' nonterminal front) :
      Path (levels + 1) (.one .expression) levels' nonterminal front
  | only {levels levels' : Nat} {level : Level} {nonterminal : Nonterminal} {front : List Token}
      (path : Path levels (.one level.operand) levels' nonterminal front) :
      Path levels (.one (.chain level)) levels' nonterminal front
  | rest {levels levels' : Nat} {level : Level} {nonterminal : Nonterminal} {front : List Token}
      (first : Derivation (.one level.operand)) (admissible : first.Admissible)
      (depth : first.depth ≤ levels) (path : Path levels (.many level) levels' nonterminal front) :
      Path levels (.one (.chain level)) levels' nonterminal (first.tokens ++ front)
  | last {levels levels' : Nat} {level : Level} {nonterminal : Nonterminal} {operator : Token}
      {front : List Token} (isOperator : level.holds operator.kind = true)
      (path : Path levels (.one level.operand) levels' nonterminal front) :
      Path levels (.many level) levels' nonterminal (operator :: front)
  | more {levels levels' : Nat} {level : Level} {nonterminal : Nonterminal} {operator : Token}
      {front : List Token} (isOperator : level.holds operator.kind = true)
      (operand : Derivation (.one level.operand)) (admissible : operand.Admissible)
      (depth : operand.depth ≤ levels)
      (path : Path levels (.many level) levels' nonterminal front) :
      Path levels (.many level) levels' nonterminal (operator :: (operand.tokens ++ front))

namespace Path

variable {levels levels' : Nat} {symbol : Symbol} {nonterminal : Nonterminal}
  {front tokens others behind : List Token}

theorem plug (h : Path levels symbol levels' nonterminal front)
    (htokens : Derived (.one nonterminal) tokens) : Derived symbol (front ++ tokens) := by
  induction h with
  | here => exact htokens
  | binding isLet isName isEquals path ih => exact (ih htokens).binding isLet isName isEquals
  | comparison path ih => exact (ih htokens).comparison
  | only path ih => exact (ih htokens).only
  | rest first admissible depth path ih =>
    rw [List.append_assoc]
    exact (Derived.of_derivation admissible).chain (ih htokens)
  | last isOperator path ih => exact (ih htokens).only.behind_operator isOperator
  | more isOperator operand admissible depth path ih =>
    rw [List.cons_append, List.append_assoc]
    exact ((Derived.of_derivation admissible).chain (ih htokens)).behind_operator isOperator

theorem begins (h : Path levels symbol levels' nonterminal front) (hnonempty : tokens ≠ [])
    (htokens : Derived (.one nonterminal) (tokens ++ others)) :
    ∃ token rest, front ++ tokens = token :: rest ∧ symbol.begins token.kind = true := by
  obtain ⟨d, _, hd⟩ := h.plug htokens
  rw [← List.append_assoc] at hd
  obtain ⟨first, rest, hfirst⟩ : ∃ first rest, front ++ tokens = first :: rest :=
    List.exists_cons_of_ne_nil (by simp [hnonempty])
  rw [hfirst, List.cons_append] at hd
  obtain ⟨token, _, hcons, hbegins⟩ | ⟨_, _, hnil⟩ := d.tokens_eq_cons
  · rw [hd] at hcons
    exact ⟨first, rest, hfirst, List.head_eq_of_cons_eq hcons ▸ hbegins⟩
  · rw [hd] at hnil
    cases hnil

theorem falters (h : Path levels symbol levels' nonterminal front) (hnonempty : tokens ≠ [])
    (htokens : Derived (.one nonterminal) (tokens ++ others)) (hends : symbol.Ends behind)
    (hlast : Falters levels' (.one nonterminal) tokens behind (fun _ _ => True) True) :
    Falters levels symbol (front ++ tokens) behind (fun _ _ => True) True := by
  induction h with
  | here => exact hlast
  | binding isLet isName isEquals path ih =>
    exact (ih htokens hends hlast).binding isLet isName isEquals fun _ _ _ => trivial
  | comparison path ih =>
    exact (ih htokens hends hlast).comparison (path.begins hnonempty htokens)
  | only path ih =>
    exact (ih htokens (Derivation.nothing.ends_operand hends) hlast).only hends
  | rest first admissible depth path ih =>
    obtain ⟨operator, others, hoperator, isOperator⟩ := path.begins hnonempty htokens
    rw [List.append_assoc]
    refine (ih htokens hends hlast).rest admissible depth ?_ fun _ _ _ => trivial
    rw [hoperator]
    exact Symbol.ends_cons.mpr (Nonterminal.extendedBy_operand_of_holds isOperator)
  | last isOperator path ih =>
    exact (ih htokens (Derivation.nothing.ends_operand hends) hlast).last isOperator hends
      fun _ _ _ => trivial
  | more isOperator operand admissible depth path ih =>
    obtain ⟨operator, others, hoperator, isOperator'⟩ := path.begins hnonempty htokens
    rw [List.cons_append, List.append_assoc]
    refine (ih htokens hends hlast).more isOperator admissible depth ?_ fun _ _ _ => trivial
    rw [hoperator]
    exact Symbol.ends_cons.mpr (Nonterminal.extendedBy_operand_of_holds isOperator')

theorem nonterminal_ne (h : Path levels symbol levels' nonterminal front)
    (hsymbol : symbol ≠ .one .expression) : nonterminal ≠ .expression := by
  induction h with
  | here => exact fun hexpression => hsymbol (congrArg Symbol.one hexpression)
  | binding | comparison => exact absurd rfl hsymbol
  | @only _ _ level _ _ path ih | @last _ _ level _ _ _ _ path ih =>
    exact ih (by cases level <;> simp [Level.operand])
  | rest first admissible depth path ih | more isOperator operand admissible depth path ih =>
    exact ih (by simp)

theorem falters_tip {tip : Tip} (h : Path levels symbol levels' tip.nonterminal front)
    (hadmissible : tip.Admissible) (hends : symbol.Ends behind)
    (hlast : Falters levels' (.one tip.nonterminal) tip.tokens behind (fun _ _ => True) True) :
    Falters levels symbol (front ++ tip.tokens) behind (fun _ _ => True) True := by
  obtain ⟨token, rest, htokens, _⟩ := tip.begins
  have hfilled := tip.filled hadmissible { token with kind := tip.closing } rfl
  exact h.falters (by simp [htokens]) hfilled hends hlast

end Path

-- Tokens of a symbol that end with a tip.
inductive Open (levels : Nat) (symbol : Symbol) : List Token → Prop where
  | intro (tip : Tip) {levels' : Nat} {front : List Token}
      (path : Path levels symbol levels' tip.nonterminal front) (admissible : tip.Admissible) :
      Open levels symbol (front ++ tip.tokens)

namespace Open

variable {levels : Nat} {symbol : Symbol} {level : Level} {tokens behind : List Token}

theorem of_tip (tip : Tip) (hadmissible : tip.Admissible) :
    Open levels (.one tip.nonterminal) tip.tokens :=
  .intro tip .here hadmissible

theorem binding {letToken name equals : Token} (isLet : letToken.kind = .letWord)
    (isName : name.kind = .identifier) (isEquals : equals.kind = .equals)
    (h : Open levels (.one .expression) tokens) :
    Open (levels + 1) (.one .expression) (letToken :: name :: equals :: tokens) := by
  obtain ⟨tip, path, hadmissible⟩ := h
  exact .intro tip (path.binding isLet isName isEquals) hadmissible

theorem comparison (h : Open levels (.one (.chain .comparison)) tokens) :
    Open (levels + 1) (.one .expression) tokens := by
  obtain ⟨tip, path, hadmissible⟩ := h
  exact .intro tip path.comparison hadmissible

theorem only (h : Open levels (.one level.operand) tokens) :
    Open levels (.one (.chain level)) tokens := by
  obtain ⟨tip, path, hadmissible⟩ := h
  exact .intro tip path.only hadmissible

theorem rest {first : Derivation (.one level.operand)} (hfirst : first.Admissible)
    (hdepth : first.depth ≤ levels) (h : Open levels (.many level) tokens) :
    Open levels (.one (.chain level)) (first.tokens ++ tokens) := by
  obtain ⟨tip, path, hadmissible⟩ := h
  rw [← List.append_assoc]
  exact .intro tip (path.rest first hfirst hdepth) hadmissible

theorem last {operator : Token} (isOperator : level.holds operator.kind = true)
    (h : Open levels (.one level.operand) tokens) :
    Open levels (.many level) (operator :: tokens) := by
  obtain ⟨tip, path, hadmissible⟩ := h
  exact .intro tip (path.last isOperator) hadmissible

theorem more {operator : Token} {operand : Derivation (.one level.operand)}
    (isOperator : level.holds operator.kind = true) (hoperand : operand.Admissible)
    (hdepth : operand.depth ≤ levels) (h : Open levels (.many level) tokens) :
    Open levels (.many level) (operator :: (operand.tokens ++ tokens)) := by
  obtain ⟨tip, path, hadmissible⟩ := h
  rw [← List.append_assoc]
  exact .intro tip (path.more isOperator operand hoperand hdepth) hadmissible

-- In front of a `then` or of the end of the text the tip is reported.
theorem falters (h : Open levels symbol tokens)
    (hbehind : ∀ token ∈ behind.head?, token.kind = .thenWord) :
    Falters levels symbol tokens behind (fun _ _ => True) True := by
  obtain ⟨tip, path, hadmissible⟩ := h
  have hstops : ∀ token ∈ behind.head?,
      token.kind.closes = true ∧ tip.accepts token.kind = false := by
    intro token htoken
    rw [hbehind token htoken]
    exact ⟨rfl, tip.accepts_eq_false (by cases tip <;> simp [Tip.closing]) (by decide)⟩
  exact path.falters_tip hadmissible
    (fun token htoken => Symbol.extendedBy_of_closes (hstops token htoken).1)
    (tip.falters hadmissible _ hstops)

-- A token that closes another construct closes the tip, or the tip is reported there.
theorem filled_or_falters (h : Open levels symbol tokens) {token : Token}
    (htoken : token.kind = .rightParen ∨ token.kind = .endWord) :
    Derived symbol (tokens ++ [token]) ∨
      ∀ behind, Falters levels symbol tokens (token :: behind) (fun _ _ => True) True := by
  obtain ⟨tip, path, hadmissible⟩ := h
  by_cases hclosing : token.kind = tip.closing
  · rw [List.append_assoc]
    exact .inl (path.plug (tip.filled hadmissible token hclosing))
  · refine .inr fun behind => ?_
    have hcloses : token.kind.closes = true := by rcases htoken with h | h <;> rw [h] <;> rfl
    have helse : token.kind ≠ .elseWord := by rcases htoken with h | h <;> rw [h] <;> decide
    refine path.falters_tip hadmissible (Symbol.ends_of_closes hcloses)
      (tip.falters hadmissible _ fun next hnext => ?_)
    obtain rfl : token = next := by simpa using hnext
    exact ⟨hcloses, tip.accepts_eq_false hclosing helse⟩

theorem filled_or_falters_else (h : Open levels symbol tokens) {elseToken endToken : Token}
    {otherwise : Derivation (.one .expression)} (isElse : elseToken.kind = .elseWord)
    (isEnd : endToken.kind = .endWord) (hotherwise : otherwise.Admissible) :
    Derived symbol (tokens ++ elseToken :: (otherwise.tokens ++ [endToken])) ∨
      ∀ behind, Falters levels symbol tokens (elseToken :: behind) (fun _ _ => True) True := by
  obtain @⟨tip, levels', front, path, hadmissible⟩ := h
  have hstuck : tip.accepts .elseWord = false →
      ∀ behind, Falters levels symbol (front ++ tip.tokens) (elseToken :: behind)
        (fun _ _ => True) True := by
    intro haccepts behind
    have hcloses := Symbol.closes_of_kind isElse rfl
    refine path.falters_tip hadmissible (Symbol.ends_of_closes hcloses)
      (tip.falters hadmissible _ fun next hnext => ?_)
    obtain rfl : elseToken = next := by simpa using hnext
    exact ⟨hcloses, isElse ▸ haccepts⟩
  cases tip with
  | ifThen ifToken condition thenToken body isIf isThen =>
    rw [List.append_assoc]
    refine .inl (path.plug ⟨.ifThenElse ifToken condition thenToken body elseToken otherwise
      endToken isIf isThen isElse isEnd, ⟨hadmissible.1, hadmissible.2, hotherwise⟩, ?_⟩)
    simp [Derivation.tokens, Tip.tokens]
  | group | ifThenElse => exact .inr (hstuck rfl)

-- Operators behind an operand go on with the expression in the tip. If that ends with `end`, the
-- tip is reported in front of them.
theorem absorbs_or_falters (h : Open levels (.one level.operand) tokens)
    {rest : Derivation (.many level)} (hrest : rest.Admissible) :
    Open levels (.one level.operand) (tokens ++ rest.tokens) ∨
      ∀ behind, (Symbol.many level).Ends behind →
        Falters levels (.one level.operand) tokens (rest.tokens ++ behind) (fun _ _ => True)
          True := by
  cases hcase : rest with
  | nothing =>
    rw [Derivation.tokens, List.append_nil]
    exact .inl h
  | more operator operand others isOperator =>
    rw [← hcase]
    obtain ⟨tip, path, hadmissible⟩ := h
    have hnonterminal := path.nonterminal_ne (by cases level <;> simp [Level.operand])
    cases tip with
    | ifThen | ifThenElse => exact absurd rfl hnonterminal
    | group left inner isLeft =>
      by_cases hclosed : inner.Closed
      · refine .inr fun behind hends => path.falters_tip hadmissible (rest.ends_operand hends)
          (.missingParen isLeft hadmissible (.inl hclosed) fun token htoken => ?_)
        obtain rfl : operator = token := by simpa [hcase, Derivation.tokens] using htoken
        constructor <;> rintro hkind <;> rw [hkind] at isOperator <;> cases level <;>
          revert isOperator <;> decide
      · obtain ⟨longer, hlonger, htokens⟩ :=
          inner.append_many (.of_derivation hrest) hadmissible hclosed
        have hopen := Open.intro (.group left longer isLeft) path hlonger
        rw [Tip.tokens, htokens] at hopen
        rw [List.append_assoc]
        exact .inl hopen

end Open

end Calculator.Grammar
