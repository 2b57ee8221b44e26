import Calculator.Proofs.Parsing.Faults

namespace Calculator.Grammar

-- Tokens that the grammar derives from a symbol, within the limits on literals.
def Derived (symbol : Symbol) (tokens : List Token) : Prop :=
  ∃ d : Derivation symbol, d.Admissible ∧ d.tokens = tokens

namespace Derived

variable {level : Level} {tokens others : List Token}

theorem of_derivation {symbol : Symbol} {d : Derivation symbol} (h : d.Admissible) :
    Derived symbol d.tokens := ⟨d, h, rfl⟩

theorem binding {letToken name equals : Token} (isLet : letToken.kind = .letWord)
    (isName : name.kind = .identifier) (isEquals : equals.kind = .equals)
    (h : Derived (.one .expression) tokens) :
    Derived (.one .expression) (letToken :: name :: equals :: tokens) := by
  obtain ⟨d, hadmissible, rfl⟩ := h
  exact ⟨.binding letToken name equals d isLet isName isEquals, hadmissible, rfl⟩

theorem comparison (h : Derived (.one (.chain .comparison)) tokens) :
    Derived (.one .expression) tokens := by
  obtain ⟨d, hadmissible, rfl⟩ := h
  exact ⟨.comparison d, hadmissible, rfl⟩

theorem chain (hfirst : Derived (.one level.operand) tokens)
    (hrest : Derived (.many level) others) : Derived (.one (.chain level)) (tokens ++ others) := by
  obtain ⟨first, hadmissibleFirst, rfl⟩ := hfirst
  obtain ⟨rest, hadmissibleRest, rfl⟩ := hrest
  exact ⟨.chain first rest, ⟨hadmissibleFirst, hadmissibleRest⟩, rfl⟩

theorem nothing : Derived (.many level) [] := ⟨.nothing, trivial, rfl⟩

theorem only (h : Derived (.one level.operand) tokens) : Derived (.one (.chain level)) tokens := by
  have hchain := h.chain nothing
  rwa [List.append_nil] at hchain

theorem behind_operator {operator : Token} (isOperator : level.holds operator.kind = true)
    (h : Derived (.one (.chain level)) tokens) : Derived (.many level) (operator :: tokens) := by
  obtain ⟨d, hadmissible, rfl⟩ := h
  cases d with
  | chain first rest => exact ⟨.more operator first rest isOperator, hadmissible, rfl⟩

theorem append_chain
    (hoperand : ∀ operand, Derived (.one level.operand) operand →
      Derived (.one (.chain level)) (operand ++ others)) :
    ∀ (first : Derivation (.one level.operand)) (rest : Derivation (.many level)),
      first.Admissible → rest.Admissible →
        Derived (.one (.chain level)) (first.tokens ++ (rest.tokens ++ others))
  | first, .nothing, hfirst, _ => hoperand _ (of_derivation hfirst)
  | first, .more operator operand rest isOperator, hfirst, hrest => by
    have hbehind := append_chain hoperand operand rest hrest.1 hrest.2
    have hchain := (of_derivation hfirst).chain (hbehind.behind_operator isOperator)
    simpa only [Derivation.tokens, List.cons_append, List.append_assoc] using hchain

theorem append (h : Derived (.one (.chain level)) tokens)
    (hoperand : ∀ operand, Derived (.one level.operand) operand →
      Derived (.one (.chain level)) (operand ++ others)) :
    Derived (.one (.chain level)) (tokens ++ others) := by
  obtain ⟨d, hadmissible, rfl⟩ := h
  cases d with
  | chain first rest =>
    rw [Derivation.tokens, List.append_assoc]
    exact append_chain hoperand first rest hadmissible.1 hadmissible.2

-- A comparison goes on with the operators of each level, which its last operand takes if they
-- are not its own.
theorem append_many (h : Derived (.one (.chain .comparison)) tokens)
    (hothers : Derived (.many level) others) :
    Derived (.one (.chain .comparison)) (tokens ++ others) := by
  cases level with
  | comparison => exact h.append fun _ hsum => hsum.chain hothers
  | sum => exact h.append fun _ hsum => only (hsum.append fun _ hproduct => hproduct.chain hothers)
  | product =>
    exact h.append fun _ hsum => only (hsum.append fun _ hproduct =>
      only (hproduct.append fun _ hprimary => hprimary.chain hothers))

end Derived

namespace Derivation

open Calculator.Parser

-- Expressions that end with `end`. No operator extends them.
def Closed {symbol : Symbol} : Derivation symbol → Prop
  | binding _ _ _ body _ _ _ => body.Closed
  | ifThen _ _ _ _ _ _ _ _ => True
  | ifThenElse _ _ _ _ _ _ _ _ _ _ _ => True
  | _ => False

theorem Closed.readsBefore {symbol : Symbol} {d : Derivation symbol} (h : d.Closed)
    (behind : List Token) : d.ReadsBefore behind := by
  induction d with
  | binding letToken name equals body isLet isName isEquals ih =>
    exact .binding isLet isName isEquals (ih h)
  | ifThen ifToken condition thenToken body endToken isIf isThen isEnd =>
    exact .ifThen isIf isThen isEnd condition.isRead body.isRead
  | ifThenElse ifToken condition thenToken body elseToken otherwise endToken isIf isThen isElse
      isEnd =>
    exact .ifThenElse isIf isThen isElse isEnd condition.isRead body.isRead otherwise.isRead
  | _ => exact h.elim

theorem Closed.curtailedBefore {symbol : Symbol} {d : Derivation symbol} (h : d.Closed)
    (behind : List Token) : d.CurtailedBefore behind := by
  induction d with
  | binding letToken name equals body isLet isName isEquals ih =>
    exact .binding isLet isName isEquals (ih h)
  | ifThen ifToken condition thenToken body endToken isIf isThen isEnd =>
    exact .ifThen isIf isThen isEnd condition.isCurtailed body.isCurtailed
  | ifThenElse ifToken condition thenToken body elseToken otherwise endToken isIf isThen isElse
      isEnd =>
    exact .ifThenElse isIf isThen isElse isEnd condition.isCurtailed body.isCurtailed
      otherwise.isCurtailed
  | _ => exact h.elim

theorem append_many {level : Level} {others : List Token} (hothers : Derived (.many level) others) :
    ∀ d : Derivation (.one .expression), d.Admissible → ¬d.Closed →
      Derived (.one .expression) (d.tokens ++ others)
  | .binding letToken name equals body isLet isName isEquals, hadmissible, hopen =>
    .binding isLet isName isEquals (append_many hothers body hadmissible hopen)
  | .comparison operands, hadmissible, _ =>
    (Derived.append_many (.of_derivation hadmissible) hothers).comparison
  | .ifThen .., _, hopen => absurd trivial hopen
  | .ifThenElse .., _, hopen => absurd trivial hopen

-- In front of tokens that do not extend it, an expression is read or given up in.
theorem read_or_givenUp (d : Derivation (.one .expression)) (hadmissible : d.Admissible)
    {behind : List Token} (hbehind : d.Closed ∨ (Symbol.one .expression).Ends behind) (levels : Nat)
    {state : State} (hstate : state.Intact) (hrest : state.rest = d.tokens ++ behind) :
    (∃ after, Rule.expression levels state = (d.tree, after) ∧ Passes state after behind) ∨
      ∃ token, GivesUp state token (Rule.expression levels state).2 := by
  rcases Nat.lt_or_ge levels d.depth with hdeep | hshallow
  · have hcurtailed : d.CurtailedBefore behind :=
      hbehind.elim (fun hclosed => hclosed.curtailedBefore behind) d.isCurtailed.before
    obtain ⟨token, _, hgives⟩ := hcurtailed hadmissible levels state hdeep hstate hrest
    exact .inr ⟨token, hgives⟩
  · have hreads : d.ReadsBefore behind :=
      hbehind.elim (fun hclosed => hclosed.readsBefore behind) d.isRead.before
    exact .inl (hreads hadmissible levels state hshallow hstate.eof hrest)

theorem branch_read_or_givenUp {condition body : Derivation (.one .expression)} {thenToken : Token}
    (isThen : thenToken.kind = .thenWord) (hcondition : condition.Admissible)
    (hbody : body.Admissible) {behind : List Token} (hends : (Symbol.one .expression).Ends behind)
    (levels : Nat) {state : State} (hstate : state.Intact)
    (hrest : state.advance.rest = condition.tokens ++ thenToken :: (body.tokens ++ behind)) :
    (∃ after, Rule.conditional (Rule.expression levels) state =
        Rule.finish levels state.next condition.tree thenToken body.tree after ∧
      Passes state after behind) ∨
    ∃ token, GivesUp state token (Rule.conditional (Rule.expression levels) state).2 := by
  have hadvance : Passes state state.advance state.advance.rest := ⟨rfl, rfl, rfl, rfl⟩
  rcases Nat.lt_or_ge levels (max condition.depth body.depth) with hdeep | hshallow
  · obtain ⟨token, _, hgives⟩ := IsCurtailed.branch condition.isCurtailed body.isCurtailed isThen
      hcondition hbody hdeep hstate hrest hends
    exact .inr ⟨token, hgives.of_passes hadvance⟩
  · obtain ⟨afterCondition, after, hcondition, hthen, hbody, hpasses⟩ :=
      IsRead.branch condition.isRead body.isRead isThen hcondition hbody hshallow
        hstate.advance.eof hrest hends
    exact .inl ⟨after, Rule.conditional_eq_finish hcondition hthen hbody, hadvance.trans hpasses⟩

end Derivation

end Calculator.Grammar
