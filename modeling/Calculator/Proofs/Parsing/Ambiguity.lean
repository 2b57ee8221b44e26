import Calculator.Proofs.Parsing.Grammar

namespace Calculator.Grammar

namespace Level

-- The operators that an operand of a chain of the level may hold, and its own.
def reaches : Level → Kind → Bool
  | comparison => Kind.isBinary
  | sum => fun kind => kind.isAdditive || kind.isMultiplicative
  | product => Kind.isMultiplicative

theorem reaches_of_holds {level : Level} {kind : Kind} (h : level.holds kind = true) :
    level.reaches kind = true := by
  cases level <;> cases kind <;> revert h <;> decide

end Level

namespace Nonterminal

-- The kinds of tokens that may extend what has been derived.
def extendedBy : Nonterminal → Kind → Bool
  | expression, kind => kind = .period || Level.comparison.reaches kind
  | chain level, kind => kind = .period || level.reaches kind
  | primary, kind | number, kind => kind = .period

theorem extendedBy_of_operand {level : Level} {kind : Kind}
    (h : level.operand.extendedBy kind = true) :
    (chain level).extendedBy kind = true := by
  cases level <;> cases kind <;> revert h <;> decide

theorem extendedBy_operand_of_holds {level : Level} {kind : Kind} (h : level.holds kind = true) :
    level.operand.extendedBy kind = false := by
  cases level <;> cases kind <;> revert h <;> decide

end Nonterminal

namespace Symbol

def begins : Symbol → Kind → Bool
  | one nonterminal => nonterminal.begins
  | many level => level.holds

def extendedBy : Symbol → Kind → Bool
  | one nonterminal => nonterminal.extendedBy
  | many level => (Nonterminal.chain level).extendedBy

theorem extendedBy_of_holds {level : Level} {kind : Kind} (h : level.holds kind = true) :
    (many level).extendedBy kind = true := by
  simp [extendedBy, Nonterminal.extendedBy, Level.reaches_of_holds h]

-- The tokens behind a derivation do not extend it.
def Ends (symbol : Symbol) (behind : List Token) : Prop :=
  ∀ token ∈ behind.head?, symbol.extendedBy token.kind = false

theorem ends_cons {symbol : Symbol} {token : Token} {behind : List Token} :
    symbol.Ends (token :: behind) ↔ symbol.extendedBy token.kind = false := by
  simp [Ends]

theorem extendedBy_of_closes {symbol : Symbol} {kind : Kind} (h : kind.closes = true) :
    symbol.extendedBy kind = false := by
  cases kind with
  | rightParen | thenWord | elseWord | endWord | eof =>
    rcases symbol with (_ | level | _ | _) | level <;> try cases level
    all_goals rfl
  | _ => cases h

theorem closes_of_kind {token : Token} {kind : Kind} (h : token.kind = kind)
    (hcloses : kind.closes = true) : token.kind.closes = true := by
  rw [h]
  exact hcloses

theorem ends_of_closes {symbol : Symbol} {token : Token} {behind : List Token}
    (h : token.kind.closes = true) : symbol.Ends (token :: behind) :=
  ends_cons.mpr (extendedBy_of_closes h)

theorem Ends.mono {first second : Symbol} {behind : List Token} (h : first.Ends behind)
    (hle : ∀ kind, second.extendedBy kind = true → first.extendedBy kind = true) :
    second.Ends behind := by
  intro token htoken
  have hfirst := h token htoken
  cases hsecond : second.extendedBy token.kind with
  | false => rfl
  | true => rw [hle _ hsecond] at hfirst; exact hfirst

end Symbol

theorem cons_ne_cons {first second : Token} {rest rest' : List Token} {kind kind' : Kind}
    (hfirst : first.kind = kind) (hsecond : second.kind = kind') (h : kind ≠ kind') :
    first :: rest ≠ second :: rest' := by
  intro heq
  rw [List.head_eq_of_cons_eq heq, hsecond] at hfirst
  exact h hfirst.symm

namespace Derivation

theorem tokens_eq_cons {symbol : Symbol} (d : Derivation symbol) :
    (∃ token rest, d.tokens = token :: rest ∧ symbol.begins token.kind = true) ∨
      ∃ level, symbol = .many level ∧ d.tokens = [] := by
  induction d with
  | comparison operands ih =>
    obtain ⟨token, rest, htokens, hbegins⟩ | ⟨level, hlevel, _⟩ := ih
    · refine .inl ⟨token, rest, htokens, ?_⟩
      simp only [Symbol.begins, Nonterminal.begins, Bool.or_eq_true] at hbegins ⊢
      rcases hbegins with (h | h) | h <;> simp [h]
    · cases hlevel
  | @chain level first rest ihFirst =>
    obtain ⟨token, others, htokens, hbegins⟩ | ⟨level, hlevel, _⟩ := ihFirst
    · refine .inl ⟨token, others ++ rest.tokens, ?_, ?_⟩
      · rw [tokens, htokens, List.cons_append]
      · cases level <;> exact hbegins
    · cases hlevel
  | literal number ih =>
    obtain ⟨token, rest, htokens, hbegins⟩ | ⟨level, hlevel, _⟩ := ih
    · refine .inl ⟨token, rest, htokens, ?_⟩
      simp only [Symbol.begins, Nonterminal.begins] at hbegins ⊢
      simp [hbegins]
    · cases hlevel
  | nothing => exact .inr ⟨_, rfl, rfl⟩
  | more operator operand rest isOperator => exact .inl ⟨operator, _, rfl, isOperator⟩
  | _ => exact .inl ⟨_, _, rfl, by simp_all [Symbol.begins, Nonterminal.begins]⟩

theorem begins {nonterminal : Nonterminal} (d : Derivation (.one nonterminal)) :
    ∃ token rest, d.tokens = token :: rest ∧ nonterminal.begins token.kind = true := by
  obtain h | ⟨level, hlevel, _⟩ := d.tokens_eq_cons
  · exact h
  · cases hlevel

-- What stands behind an operand ends it: an operator of the level, or what ends the chain.
theorem ends_operand {level : Level} (d : Derivation (.many level)) {behind : List Token}
    (h : (Symbol.many level).Ends behind) :
    (Symbol.one level.operand).Ends (d.tokens ++ behind) := by
  cases d with
  | nothing => exact h.mono fun kind => Nonterminal.extendedBy_of_operand
  | more operator operand rest isOperator =>
    exact Symbol.ends_cons.mpr (Nonterminal.extendedBy_operand_of_holds isOperator)

theorem append_ne_cons {nonterminal : Nonterminal} (d : Derivation (.one nonterminal))
    {behind rest : List Token} {token : Token} {kind : Kind} (hkind : token.kind = kind)
    (hbegins : nonterminal.begins kind = false) : d.tokens ++ behind ≠ token :: rest := by
  intro h
  obtain ⟨first, others, htokens, hfirst⟩ := d.begins
  rw [htokens, List.cons_append] at h
  rw [List.head_eq_of_cons_eq h, hkind, hbegins] at hfirst
  cases hfirst

-- In front of tokens that do not extend it the derivation is the only one.
def Cancels {symbol : Symbol} (d : Derivation symbol) : Prop :=
  ∀ (d' : Derivation symbol) (behind behind' : List Token),
    d.tokens ++ behind = d'.tokens ++ behind' → symbol.Ends behind → symbol.Ends behind' →
      d = d' ∧ behind = behind'

namespace Cancels

theorem closed {symbol : Symbol} {d d' : Derivation symbol} (h : d.Cancels)
    {closing closing' : Token} {behind behind' : List Token}
    (htokens : d.tokens ++ closing :: behind = d'.tokens ++ closing' :: behind')
    (hclosing : closing.kind.closes = true) (hclosing' : closing'.kind.closes = true) :
    d = d' ∧ closing = closing' ∧ behind = behind' := by
  obtain ⟨hd, hcons⟩ := h d' _ _ htokens (Symbol.ends_of_closes hclosing)
    (Symbol.ends_of_closes hclosing')
  exact ⟨hd, List.cons.inj hcons⟩

theorem binding {letToken name equals : Token} {body : Derivation (.one .expression)}
    (isLet : letToken.kind = .letWord) (isName : name.kind = .identifier)
    (isEquals : equals.kind = .equals) (ih : body.Cancels) :
    (binding letToken name equals body isLet isName isEquals).Cancels := by
  intro d' behind behind' h hends hends'
  cases d' with
  | binding letToken' name' equals' body' =>
    simp only [tokens, List.cons_append, List.cons.injEq] at h
    obtain ⟨rfl, rfl, rfl, h⟩ := h
    obtain ⟨rfl, rfl⟩ := ih body' _ _ h hends hends'
    exact ⟨rfl, rfl⟩
  | ifThen ifToken' _ _ _ _ isIf' | ifThenElse ifToken' _ _ _ _ _ _ isIf' =>
    exact absurd h (cons_ne_cons isLet isIf' (by decide))
  | comparison operands' => exact absurd h.symm (operands'.append_ne_cons isLet rfl)

theorem branch {condition condition' body body' : Derivation (.one .expression)}
    {thenToken thenToken' closing closing' : Token} {behind behind' : List Token}
    (ihCondition : condition.Cancels) (ihBody : body.Cancels) (isThen : thenToken.kind = .thenWord)
    (isThen' : thenToken'.kind = .thenWord) (hclosing : closing.kind.closes = true)
    (hclosing' : closing'.kind.closes = true)
    (h : condition.tokens ++ thenToken :: (body.tokens ++ closing :: behind) =
      condition'.tokens ++ thenToken' :: (body'.tokens ++ closing' :: behind')) :
    condition = condition' ∧ thenToken = thenToken' ∧ body = body' ∧ closing = closing' ∧
      behind = behind' := by
  obtain ⟨hcondition, hthen, hbranch⟩ := ihCondition.closed h (Symbol.closes_of_kind isThen rfl)
    (Symbol.closes_of_kind isThen' rfl)
  exact ⟨hcondition, hthen, ihBody.closed hbranch hclosing hclosing'⟩

theorem ifThen {ifToken thenToken endToken : Token} {condition body : Derivation (.one .expression)}
    (isIf : ifToken.kind = .ifWord) (isThen : thenToken.kind = .thenWord)
    (isEnd : endToken.kind = .endWord) (ihCondition : condition.Cancels) (ihBody : body.Cancels) :
    (ifThen ifToken condition thenToken body endToken isIf isThen isEnd).Cancels := by
  intro d' behind behind' h hends hends'
  cases d' with
  | ifThen ifToken' condition' thenToken' body' endToken' isIf' isThen' isEnd' =>
    simp only [tokens, List.cons_append, List.append_assoc, List.cons.injEq] at h
    obtain ⟨rfl, h⟩ := h
    obtain ⟨rfl, rfl, rfl, rfl, rfl⟩ := branch ihCondition ihBody isThen isThen'
      (Symbol.closes_of_kind isEnd rfl) (Symbol.closes_of_kind isEnd' rfl) h
    exact ⟨rfl, rfl⟩
  | ifThenElse ifToken' condition' thenToken' body' elseToken' _ _ _ isThen' isElse' =>
    simp only [tokens, List.cons_append, List.append_assoc, List.cons.injEq] at h
    obtain ⟨-, -, -, rfl, -⟩ := branch ihCondition ihBody isThen isThen'
      (Symbol.closes_of_kind isEnd rfl) (Symbol.closes_of_kind isElse' rfl) h.2
    rw [isEnd] at isElse'
    cases isElse'
  | binding letToken' _ _ _ isLet' => exact absurd h (cons_ne_cons isIf isLet' (by decide))
  | comparison operands' => exact absurd h.symm (operands'.append_ne_cons isIf rfl)

theorem ifThenElse {ifToken thenToken elseToken endToken : Token}
    {condition body otherwise : Derivation (.one .expression)}
    (isIf : ifToken.kind = .ifWord) (isThen : thenToken.kind = .thenWord)
    (isElse : elseToken.kind = .elseWord) (isEnd : endToken.kind = .endWord)
    (ihCondition : condition.Cancels) (ihBody : body.Cancels) (ihOtherwise : otherwise.Cancels) :
    (ifThenElse ifToken condition thenToken body elseToken otherwise endToken isIf isThen isElse
      isEnd).Cancels := by
  intro d' behind behind' h hends hends'
  cases d' with
  | ifThenElse ifToken' condition' thenToken' body' elseToken' otherwise' endToken' isIf' isThen'
      isElse' isEnd' =>
    simp only [tokens, List.cons_append, List.append_assoc, List.cons.injEq] at h
    obtain ⟨rfl, h⟩ := h
    obtain ⟨rfl, rfl, rfl, rfl, helse⟩ := branch ihCondition ihBody isThen isThen'
      (Symbol.closes_of_kind isElse rfl) (Symbol.closes_of_kind isElse' rfl) h
    obtain ⟨rfl, rfl, rfl⟩ := ihOtherwise.closed helse (Symbol.closes_of_kind isEnd rfl)
      (Symbol.closes_of_kind isEnd' rfl)
    exact ⟨rfl, rfl⟩
  | ifThen ifToken' condition' thenToken' body' endToken' _ isThen' isEnd' =>
    simp only [tokens, List.cons_append, List.append_assoc, List.cons.injEq] at h
    obtain ⟨-, -, -, rfl, -⟩ := branch ihCondition ihBody isThen isThen'
      (Symbol.closes_of_kind isElse rfl) (Symbol.closes_of_kind isEnd' rfl) h.2
    rw [isElse] at isEnd'
    cases isEnd'
  | binding letToken' _ _ _ isLet' => exact absurd h (cons_ne_cons isIf isLet' (by decide))
  | comparison operands' => exact absurd h.symm (operands'.append_ne_cons isIf rfl)

theorem comparison {operands : Derivation (.one (.chain .comparison))} (ih : operands.Cancels) :
    (comparison operands).Cancels := by
  intro d' behind behind' h hends hends'
  cases d' with
  | comparison operands' =>
    obtain ⟨rfl, rfl⟩ := ih operands' _ _ h hends hends'
    exact ⟨rfl, rfl⟩
  | binding letToken' _ _ _ isLet' => exact absurd h (operands.append_ne_cons isLet' rfl)
  | ifThen ifToken' _ _ _ _ isIf' | ifThenElse ifToken' _ _ _ _ _ _ isIf' =>
    exact absurd h (operands.append_ne_cons isIf' rfl)

theorem chain {level : Level} {first : Derivation (.one level.operand)}
    {rest : Derivation (.many level)} (ihFirst : first.Cancels) (ihRest : rest.Cancels) :
    (chain first rest).Cancels := by
  intro d' behind behind' h hends hends'
  cases d' with
  | chain first' rest' =>
    simp only [tokens, List.append_assoc] at h
    obtain ⟨rfl, hrest⟩ :=
      ihFirst first' _ _ h (rest.ends_operand hends) (rest'.ends_operand hends')
    obtain ⟨rfl, rfl⟩ := ihRest rest' _ _ hrest hends hends'
    exact ⟨rfl, rfl⟩

theorem nothing {level : Level} : (nothing : Derivation (.many level)).Cancels := by
  intro d' behind behind' h hends hends'
  cases d' with
  | nothing => exact ⟨rfl, h⟩
  | more operator' operand' rest' isOperator' =>
    obtain rfl : behind = operator' :: _ := h
    have hstops := Symbol.ends_cons.mp hends
    rw [Symbol.extendedBy_of_holds isOperator'] at hstops
    cases hstops

theorem more {level : Level} {operator : Token} {operand : Derivation (.one level.operand)}
    {rest : Derivation (.many level)} (isOperator : level.holds operator.kind = true)
    (ihOperand : operand.Cancels) (ihRest : rest.Cancels) :
    (more operator operand rest isOperator).Cancels := by
  intro d' behind behind' h hends hends'
  cases d' with
  | more operator' operand' rest' isOperator' =>
    simp only [tokens, List.cons_append, List.append_assoc, List.cons.injEq] at h
    obtain ⟨rfl, h⟩ := h
    obtain ⟨rfl, hrest⟩ :=
      ihOperand operand' _ _ h (rest.ends_operand hends) (rest'.ends_operand hends')
    obtain ⟨rfl, rfl⟩ := ihRest rest' _ _ hrest hends hends'
    exact ⟨rfl, rfl⟩
  | nothing =>
    obtain rfl : behind' = operator :: _ := h.symm
    have hstops := Symbol.ends_cons.mp hends'
    rw [Symbol.extendedBy_of_holds isOperator] at hstops
    cases hstops

theorem literal {number : Derivation (.one .number)} (ih : number.Cancels) :
    (literal number).Cancels := by
  intro d' behind behind' h hends hends'
  cases d' with
  | literal number' =>
    obtain ⟨rfl, rfl⟩ := ih number' _ _ h hends hends'
    exact ⟨rfl, rfl⟩
  | reference name' isName' => exact absurd h (number.append_ne_cons isName' rfl)
  | group left' inner' right' isLeft' => exact absurd h (number.append_ne_cons isLeft' rfl)

theorem reference {name : Token} (isName : name.kind = .identifier) :
    (reference name isName).Cancels := by
  intro d' behind behind' h hends hends'
  cases d' with
  | reference name' isName' =>
    obtain ⟨rfl, rfl⟩ := List.cons.inj h
    exact ⟨rfl, rfl⟩
  | literal number' => exact absurd h.symm (number'.append_ne_cons isName rfl)
  | group left' inner' right' isLeft' =>
    exact absurd h (cons_ne_cons isName isLeft' (by decide))

theorem group {left right : Token} {inner : Derivation (.one .expression)}
    (isLeft : left.kind = .leftParen) (isRight : right.kind = .rightParen) (ih : inner.Cancels) :
    (group left inner right isLeft isRight).Cancels := by
  intro d' behind behind' h hends hends'
  cases d' with
  | group left' inner' right' isLeft' isRight' =>
    simp only [tokens, List.cons_append, List.append_assoc, List.cons.injEq] at h
    obtain ⟨rfl, h⟩ := h
    obtain ⟨rfl, rfl, rfl⟩ := ih.closed h (Symbol.closes_of_kind isRight rfl)
      (Symbol.closes_of_kind isRight' rfl)
    exact ⟨rfl, rfl⟩
  | literal number' => exact absurd h.symm (number'.append_ne_cons isLeft rfl)
  | reference name' isName' => exact absurd h (cons_ne_cons isLeft isName' (by decide))

theorem integer {digits : Token} (isDigits : digits.kind = .number) :
    (integer digits isDigits).Cancels := by
  intro d' behind behind' h hends hends'
  cases d' with
  | integer digits' isDigits' =>
    obtain ⟨rfl, rfl⟩ := List.cons.inj h
    exact ⟨rfl, rfl⟩
  | real whole' point' fraction' isWhole' isPoint' =>
    obtain ⟨rfl, rfl⟩ := List.cons.inj h
    have hstops := Symbol.ends_cons.mp hends
    rw [isPoint'] at hstops
    cases hstops

theorem real {whole point fraction : Token} (isWhole : whole.kind = .number)
    (isPoint : point.kind = .period) (isFraction : fraction.kind = .number) :
    (real whole point fraction isWhole isPoint isFraction).Cancels := by
  intro d' behind behind' h hends hends'
  cases d' with
  | real whole' point' fraction' =>
    simp only [tokens, List.cons_append, List.nil_append, List.cons.injEq] at h
    obtain ⟨rfl, rfl, rfl, rfl⟩ := h
    exact ⟨rfl, rfl⟩
  | integer digits' isDigits' =>
    obtain ⟨rfl, rfl⟩ := List.cons.inj h.symm
    have hstops := Symbol.ends_cons.mp hends'
    rw [isPoint] at hstops
    cases hstops

end Cancels

theorem cancels {symbol : Symbol} (d : Derivation symbol) : d.Cancels := by
  induction d with
  | binding letToken name equals body isLet isName isEquals ih =>
    exact .binding isLet isName isEquals ih
  | ifThen ifToken condition thenToken body endToken isIf isThen isEnd ihCondition ihBody =>
    exact .ifThen isIf isThen isEnd ihCondition ihBody
  | ifThenElse ifToken condition thenToken body elseToken otherwise endToken isIf isThen isElse
      isEnd ihCondition ihBody ihOtherwise =>
    exact .ifThenElse isIf isThen isElse isEnd ihCondition ihBody ihOtherwise
  | comparison operands ih => exact ih.comparison
  | chain first rest ihFirst ihRest => exact ihFirst.chain ihRest
  | nothing => exact .nothing
  | more operator operand rest isOperator ihOperand ihRest =>
    exact .more isOperator ihOperand ihRest
  | literal number ih => exact ih.literal
  | reference name isName => exact .reference isName
  | group left inner right isLeft isRight ih => exact .group isLeft isRight ih
  | integer digits isDigits => exact .integer isDigits
  | real whole point fraction isWhole isPoint isFraction => exact .real isWhole isPoint isFraction

-- Tokens have at most one derivation.
theorem eq_of_tokens {symbol : Symbol} {d d' : Derivation symbol} (h : d.tokens = d'.tokens) :
    d = d' := by
  have hends : symbol.Ends [] := by simp [Symbol.Ends]
  exact (d.cancels d' [] [] (congrArg (· ++ []) h) hends hends).1

end Derivation

end Calculator.Grammar
