import Calculator.Parser.Rules

namespace Calculator.Grammar

inductive Level where
  | comparison
  | sum
  | product
  deriving DecidableEq

inductive Nonterminal where
  | expression
  | chain (level : Level)
  | primary
  | number
  deriving DecidableEq

namespace Level

def operators : Level → List Kind
  | comparison => [.greater, .less, .greaterEqual, .lessEqual, .equalEqual]
  | sum => [.plus, .minus]
  | product => [.star, .slash]

def holds (level : Level) (kind : Kind) : Bool := level.operators.contains kind

def operand : Level → Nonterminal
  | comparison => .chain .sum
  | sum => .chain .product
  | product => .primary

theorem ne_eof_of_holds {level : Level} {kind : Kind} (h : level.holds kind = true) :
    kind ≠ .eof := by
  rintro rfl
  cases level <;> revert h <;> decide

theorem isBinary_of_holds {level : Level} {kind : Kind} (h : level.holds kind = true) :
    kind.isBinary = true := by
  cases kind <;> cases level <;> revert h <;> decide

end Level

-- The kinds of first tokens.
def Nonterminal.begins : Nonterminal → Kind → Bool
  | .expression, kind =>
    kind = .letWord || kind = .ifWord || kind = .number || kind = .identifier || kind = .leftParen
  | .chain _, kind | .primary, kind =>
    kind = .number || kind = .identifier || kind = .leftParen
  | .number, kind => kind = .number

-- A nonterminal, or any number of operators of a level with an operand behind each.
inductive Symbol where
  | one (nonterminal : Nonterminal)
  | many (level : Level)

-- A derivation tree. The kinds of its tokens are part of it, so that there are no others than those
-- of the grammar.
inductive Derivation : Symbol → Type where
  | binding (letToken name equals : Token) (body : Derivation (.one .expression))
      (isLet : letToken.kind = .letWord) (isName : name.kind = .identifier)
      (isEquals : equals.kind = .equals) : Derivation (.one .expression)
  | ifThen (ifToken : Token) (condition : Derivation (.one .expression)) (thenToken : Token)
      (body : Derivation (.one .expression)) (endToken : Token) (isIf : ifToken.kind = .ifWord)
      (isThen : thenToken.kind = .thenWord) (isEnd : endToken.kind = .endWord) :
      Derivation (.one .expression)
  | ifThenElse (ifToken : Token) (condition : Derivation (.one .expression)) (thenToken : Token)
      (body : Derivation (.one .expression)) (elseToken : Token)
      (otherwise : Derivation (.one .expression)) (endToken : Token)
      (isIf : ifToken.kind = .ifWord) (isThen : thenToken.kind = .thenWord)
      (isElse : elseToken.kind = .elseWord) (isEnd : endToken.kind = .endWord) :
      Derivation (.one .expression)
  | comparison (operands : Derivation (.one (.chain .comparison))) : Derivation (.one .expression)
  | chain {level : Level} (first : Derivation (.one level.operand))
      (rest : Derivation (.many level)) : Derivation (.one (.chain level))
  | nothing {level : Level} : Derivation (.many level)
  | more {level : Level} (operator : Token) (operand : Derivation (.one level.operand))
      (rest : Derivation (.many level)) (isOperator : level.holds operator.kind = true) :
      Derivation (.many level)
  | literal (number : Derivation (.one .number)) : Derivation (.one .primary)
  | reference (name : Token) (isName : name.kind = .identifier) : Derivation (.one .primary)
  | group (left : Token) (inner : Derivation (.one .expression)) (right : Token)
      (isLeft : left.kind = .leftParen) (isRight : right.kind = .rightParen) :
      Derivation (.one .primary)
  | integer (digits : Token) (isDigits : digits.kind = .number) : Derivation (.one .number)
  | real (whole point fraction : Token) (isWhole : whole.kind = .number)
      (isPoint : point.kind = .period) (isFraction : fraction.kind = .number) :
      Derivation (.one .number)

-- What a derivation is read as: an expression, or operators with their right operands.
abbrev Meaning : Symbol → Type
  | .one _ => Expression
  | .many _ => List (Token × Expression)

namespace Derivation

def tokens {symbol : Symbol} : Derivation symbol → List Token
  | binding letToken name equals body _ _ _ => letToken :: name :: equals :: body.tokens
  | ifThen ifToken condition thenToken body endToken _ _ _ =>
    ifToken :: (condition.tokens ++ thenToken :: (body.tokens ++ [endToken]))
  | ifThenElse ifToken condition thenToken body elseToken otherwise endToken _ _ _ _ =>
    ifToken :: (condition.tokens ++ thenToken :: (body.tokens ++ elseToken ::
      (otherwise.tokens ++ [endToken])))
  | comparison operands => operands.tokens
  | chain first rest => first.tokens ++ rest.tokens
  | nothing => []
  | more operator operand rest _ => operator :: (operand.tokens ++ rest.tokens)
  | literal number => number.tokens
  | reference name _ => [name]
  | group left inner right _ _ => left :: (inner.tokens ++ [right])
  | integer digits _ => [digits]
  | real whole point fraction _ _ _ => [whole, point, fraction]

-- The expression that is derived. The operators of a level group from the left, and parentheses
-- leave no node.
def tree {symbol : Symbol} : Derivation symbol → Meaning symbol
  | binding letToken name equals body _ _ _ =>
    Expression.binding letToken name (name.text.getD "") equals body.tree
  | ifThen ifToken condition thenToken body endToken _ _ _ =>
    Expression.ifThen ifToken condition.tree thenToken body.tree endToken .empty
  | ifThenElse ifToken condition thenToken body elseToken otherwise endToken _ _ _ _ =>
    Expression.ifThenElse ifToken condition.tree thenToken body.tree elseToken otherwise.tree
      endToken
  | comparison operands => operands.tree
  | chain first rest =>
    rest.tree.foldl (fun left step => Expression.binary left step.1 step.2) first.tree
  | nothing => []
  | more operator operand rest _ => (operator, operand.tree) :: rest.tree
  | literal number => number.tree
  | reference name _ => Expression.reference name (name.text.getD "")
  | group _ inner _ _ _ => inner.tree
  | integer digits _ => Expression.integer digits (Decimal.digitsValue digits.lexeme.toList)
  | real whole point fraction _ _ _ =>
    Expression.real whole point fraction
      (Decimal.ofParts whole.lexeme.toList fraction.lexeme.toList)

-- The three tokens of a real literal touch, and integer literals are not too long.
def Admissible {symbol : Symbol} : Derivation symbol → Prop
  | binding _ _ _ body _ _ _ => body.Admissible
  | ifThen _ condition _ body _ _ _ _ => condition.Admissible ∧ body.Admissible
  | ifThenElse _ condition _ body _ otherwise _ _ _ _ _ =>
    condition.Admissible ∧ body.Admissible ∧ otherwise.Admissible
  | comparison operands => operands.Admissible
  | chain first rest => first.Admissible ∧ rest.Admissible
  | nothing => True
  | more _ operand rest _ => operand.Admissible ∧ rest.Admissible
  | literal number => number.Admissible
  | reference _ _ => True
  | group _ inner _ _ _ => inner.Admissible
  | integer digits _ => digits.lexeme.length ≤ 4300
  | real whole point fraction _ _ _ =>
    point.span.offset = whole.span.stop ∧ fraction.span.offset = point.span.stop

-- How deep expressions nest: each of them is one level deeper than the one around it.
def depth {symbol : Symbol} : Derivation symbol → Nat
  | binding _ _ _ body _ _ _ => body.depth + 1
  | ifThen _ condition _ body _ _ _ _ => max condition.depth body.depth + 1
  | ifThenElse _ condition _ body _ otherwise _ _ _ _ _ =>
    max condition.depth (max body.depth otherwise.depth) + 1
  | comparison operands => operands.depth + 1
  | chain first rest => max first.depth rest.depth
  | nothing => 0
  | more _ operand rest _ => max operand.depth rest.depth
  | literal number => number.depth
  | reference _ _ => 0
  | group _ inner _ _ _ => inner.depth
  | integer _ _ => 0
  | real _ _ _ _ _ _ => 0

end Derivation

end Calculator.Grammar
