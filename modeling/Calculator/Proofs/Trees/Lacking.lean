import Calculator.Proofs.Parsing.Grammar

namespace Calculator

-- What stands for a token if `missing` is missing.
def Token.without (missing token : Token) : Token := if token = missing then .empty else token

namespace Token

variable {missing token : Token}

@[simp] theorem without_self : missing.without missing = .empty := if_pos rfl

@[simp] theorem without_empty : missing.without .empty = .empty := by
  unfold without
  split <;> rfl

theorem without_of_ne (h : missing ≠ token) : missing.without token = token := if_neg h.symm

end Token

-- The expression with `Token.empty` in the place of a token. A `let` without its name has an empty
-- one.
def Expression.without (missing : Token) : Expression → Expression
  | integer token value => integer (missing.without token) value
  | real whole point fraction value =>
    real (missing.without whole) (missing.without point) (missing.without fraction) value
  | binary left operator right =>
    binary (left.without missing) (missing.without operator) (right.without missing)
  | reference token name => reference (missing.without token) name
  | ifThen ifToken condition thenToken body endToken elseToken =>
    ifThen (missing.without ifToken) (condition.without missing) (missing.without thenToken)
      (body.without missing) (missing.without endToken) (missing.without elseToken)
  | ifThenElse ifToken condition thenToken body elseToken otherwise endToken =>
    ifThenElse (missing.without ifToken) (condition.without missing) (missing.without thenToken)
      (body.without missing) (missing.without elseToken) (otherwise.without missing)
      (missing.without endToken)
  | binding letToken nameToken name equals body =>
    binding (missing.without letToken) (missing.without nameToken)
      (if nameToken = missing then "" else name) (missing.without equals) (body.without missing)
  | erroneous token message => erroneous (missing.without token) message
  | foreign sort => foreign sort

namespace Grammar

def Meaning.without (missing : Token) : {symbol : Symbol} → Meaning symbol → Meaning symbol
  | .one _, expression => Expression.without missing expression
  | .many _, steps => steps.map fun step => (missing.without step.1, step.2.without missing)

theorem without_foldl (missing : Token) (steps : List (Token × Expression)) (first : Expression) :
    (steps.foldl (fun left step => Expression.binary left step.1 step.2) first).without missing =
      (steps.map fun step => (missing.without step.1, step.2.without missing)).foldl
        (fun left step => Expression.binary left step.1 step.2) (first.without missing) := by
  induction steps generalizing first with
  | nil => rfl
  | cons step steps ih => exact ih _

theorem Derivation.without_tree {symbol : Symbol} {d : Derivation symbol} {missing : Token}
    (h : missing ∉ d.tokens) : Meaning.without missing d.tree = d.tree := by
  induction d with
  | binding letToken name equals body isLet isName isEquals ih =>
    simp only [tokens, List.mem_cons, not_or] at h
    obtain ⟨hlet, hname, hequals, hbody⟩ := h
    simp only [Meaning.without] at ih
    simp [Meaning.without, tree, Expression.without, Token.without_of_ne, hlet, hname,
      Ne.symm hname, hequals, ih hbody]
  | ifThen ifToken condition thenToken body endToken isIf isThen isEnd ihCondition ihBody =>
    simp only [tokens, List.mem_cons, List.mem_append, not_or] at h
    obtain ⟨hif, hcondition, hthen, hbody, hend⟩ := h
    simp only [Meaning.without] at ihCondition ihBody
    simp [Meaning.without, tree, Expression.without, Token.without_of_ne, hif,
      ihCondition hcondition, hthen, ihBody hbody, hend]
  | ifThenElse ifToken condition thenToken body elseToken otherwise endToken isIf isThen isElse
      isEnd ihCondition ihBody ihOtherwise =>
    simp only [tokens, List.mem_cons, List.mem_append, not_or] at h
    obtain ⟨hif, hcondition, hthen, hbody, helse, hotherwise, hend⟩ := h
    simp only [Meaning.without] at ihCondition ihBody ihOtherwise
    simp [Meaning.without, tree, Expression.without, Token.without_of_ne, hif,
      ihCondition hcondition, hthen, ihBody hbody, helse, ihOtherwise hotherwise, hend]
  | comparison operands ih => exact ih h
  | chain first rest ihFirst ihRest =>
    simp only [tokens, List.mem_append, not_or] at h
    simp only [Meaning.without] at ihFirst ihRest
    simp only [Meaning.without, tree, without_foldl, ihFirst h.1, ihRest h.2]
  | nothing => rfl
  | more operator operand rest isOperator ihOperand ihRest =>
    simp only [tokens, List.mem_cons, List.mem_append, not_or] at h
    obtain ⟨hoperator, hoperand, hrest⟩ := h
    simp only [Meaning.without] at ihOperand ihRest
    simp [Meaning.without, tree, Token.without_of_ne, hoperator, ihOperand hoperand, ihRest hrest]
  | literal number ih => exact ih h
  | reference name isName =>
    simp only [tokens, List.mem_singleton] at h
    simp [Meaning.without, tree, Expression.without, Token.without_of_ne, h]
  | group left inner right isLeft isRight ih =>
    simp only [tokens, List.mem_cons, List.mem_append, not_or] at h
    exact ih h.2.1
  | integer digits isDigits =>
    simp only [tokens, List.mem_singleton] at h
    simp [Meaning.without, tree, Expression.without, Token.without_of_ne, h]
  | real whole point fraction isWhole isPoint isFraction =>
    simp only [tokens, List.mem_cons, List.not_mem_nil, or_false, not_or] at h
    obtain ⟨hwhole, hpoint, hfraction⟩ := h
    simp [Meaning.without, tree, Expression.without, Token.without_of_ne, hwhole, hpoint, hfraction]

theorem Derivation.without_expression {nonterminal : Nonterminal}
    {d : Derivation (.one nonterminal)} {missing : Token} (h : missing ∉ d.tokens) :
    Expression.without missing d.tree = d.tree := d.without_tree h

end Grammar

end Calculator
