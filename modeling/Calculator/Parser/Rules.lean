import Calculator.Parser.State

namespace Calculator.Parser

-- A rule reads something that begins at the next token. It never fails: a missing token becomes
-- `Token.empty` and a missing operand an erroneous node, each with a report. An argument `nested`
-- reads an expression one level deeper.
abbrev Rule := State → Expression × State

namespace Rule

-- Behind the digits of a whole number.
def integer (whole : Token) : Rule := fun state =>
  let digits := whole.lexeme.toList
  if Decimal.maxDigits < digits.length then
    let message := Message.tooLong whole
    (.erroneous whole message, state.complain message whole)
  else (.integer whole (Decimal.digitsValue digits), state)

-- The three tokens of a real number have to touch.
def touching (whole point fraction : Token) : Bool :=
  point.span.offset = whole.span.stop && fraction.span.offset = point.span.stop

-- Behind the decimal point of a real number.
def real (whole point : Token) : Rule := fun state =>
  let fraction := state.next
  if fraction.kind = .number then
    let value := Decimal.ofParts whole.lexeme.toList fraction.lexeme.toList
    let state := state.advance
    (.real whole point fraction value,
      if touching whole point fraction then state else state.complain Message.spacedReal whole)
  else
    let message := Message.expectedFraction fraction
    (.erroneous point message, state.complain message fraction)

def number : Rule := fun state =>
  let whole := state.next
  let state := state.advance
  if state.next.kind = .period then real whole state.next state.advance else integer whole state

def parenthesized (nested : Rule) : Rule := fun state =>
  let inner := nested state.advance
  (inner.1, (inner.2.expect .rightParen "')' after expression").2)

-- A token that closes an enclosing construct stays, so that the construct can end there.
def missingOperand : Rule := fun state =>
  let token := state.next
  let message := Message.expectedExpression token
  let reported := state.complain message token
  (.erroneous token message, if token.kind.closes then reported else reported.advance)

def primary (nested : Rule) : Rule := fun state =>
  let token := state.next
  match token.kind with
  | .number => number state
  | .identifier => (.reference token (token.text.getD ""), state.advance)
  | .leftParen => parenthesized nested state
  | .invalid =>
    (.erroneous token (Message.invalidCharacter token),
      state.advance.report (invalidCharacter token))
  | _ => missingOperand state

-- Behind the operand `left`: every operator of a class with its right operand. There are at most
-- as many as there are tokens, which is the fuel.
def operators (isOperator : Kind → Bool) (operand : Rule) :
    Nat → Expression → State → Expression × State
  | 0, left, state => (left, state)
  | fuel + 1, left, state =>
    if isOperator state.next.kind then
      let right := operand state.advance
      operators isOperator operand fuel (.binary left state.next right.1) right.2
    else (left, state.look)

-- Operands with operators of a class between them, grouped from the left.
def chain (isOperator : Kind → Bool) (operand : Rule) : Rule := fun state =>
  let first := operand state
  operators isOperator operand (first.2.rest.length + 1) first.1 first.2

def product (nested : Rule) : Rule := chain Kind.isMultiplicative (primary nested)

def sum (nested : Rule) : Rule := chain Kind.isAdditive (product nested)

def comparison (nested : Rule) : Rule := chain Kind.isComparison (sum nested)

def binding (nested : Rule) : Rule := fun state =>
  let letToken := state.next
  let name := state.advance.expect .identifier "identifier after 'let'"
  let equals := name.2.expect .equals "'=' after let name"
  let body := nested equals.2
  (.binding letToken name.1 (name.1.text.getD "") equals.1 body.1, body.2)

def conditional (nested : Rule) : Rule := fun state =>
  let ifToken := state.next
  let condition := nested state.advance
  let thenToken := condition.2.expect .thenWord "'then'"
  let body := nested thenToken.2
  if body.2.next.kind = .elseWord then
    let elseToken := body.2.next
    let otherwise := nested body.2.advance
    let endToken := otherwise.2.expect .endWord "'end'"
    (.ifThenElse ifToken condition.1 thenToken.1 body.1 elseToken otherwise.1 endToken.1,
      endToken.2)
  else
    let endToken := body.2.expect .endWord "'end'"
    (.ifThen ifToken condition.1 thenToken.1 body.1 endToken.1 .empty, endToken.2)

-- Reports that nesting goes too deep and passes all that is left. The constructs around it then
-- miss their closing tokens, of which nothing more is reported.
def tooDeep : Rule := fun state =>
  let token := state.next
  (.erroneous token Message.tooDeep, (state.complain Message.tooDeep token).abandon)

-- An expression in which expressions nest at most so many levels deep, itself included.
def expression : Nat → Rule
  | 0 => tooDeep
  | levels + 1 => fun state =>
    match state.next.kind with
    | .letWord => binding (expression levels) state
    | .ifWord => conditional (expression levels) state
    | _ => comparison (expression levels) state

end Rule

namespace State

-- Reads the next expression. Unless the tokens are at their end this takes one at least.
def takeExpression (state : State) : Expression × State :=
  let taken := Rule.expression maxNesting { state with abandoned := false }
  if taken.2.rest.length = state.rest.length then
    (taken.1, if taken.2.rest.isEmpty then taken.2.look else taken.2.advance)
  else taken

-- Reports and passes the tokens that are left.
def expectEnd (state : State) : State :=
  { state with
    rest := []
    ahead := true
    reports := (leftOver state.abandoned state.rest).reverse ++ state.reports }

end State

end Calculator.Parser
