import Calculator.Proofs.Lexing.Requests
import Calculator.Proofs.Parsing.Reads

namespace Calculator

open Calculator.Parser

structure Reader where
  lexer : Lexer
  diagnostics : List Diagnostic := []
  -- how many tokens were taken, the end of the text not counted
  consumed : Nat := 0
  -- how many expressions are being read, each inside the one before
  depth : Nat := 0
  abandoned : Bool := false

namespace Reader

-- What reads an expression that begins at the next token.
abbrev Step := Reader → Expression × Reader

def peek (reader : Reader) : Token × Reader :=
  let next := reader.lexer.peek
  (next.1, { reader with lexer := next.2 })

def advance (reader : Reader) : Token × Reader :=
  let next := reader.lexer.read
  let counted := if next.1.kind = .eof then reader.consumed else reader.consumed + 1
  (next.1, { reader with lexer := next.2, consumed := counted })

def report (diagnostic : Diagnostic) (reader : Reader) : Reader :=
  { reader with diagnostics := reader.diagnostics ++ [diagnostic] }

def complain (message : String) (token : Token) (reader : Reader) : Reader :=
  if reader.abandoned then reader else reader.report (misplaced message token)

theorem size_advance_peek {reader : Reader} (h : reader.peek.1.kind ≠ .eof) :
    reader.peek.2.advance.2.lexer.size < reader.lexer.size := by
  have hread : reader.peek.2.advance.2.lexer = reader.lexer.read.2 :=
    congrArg Prod.snd reader.lexer.read_peek
  rw [hread]
  exact reader.lexer.size_read_lt (by rw [← Lexer.peek_fst]; exact h)

def skipInvalid (reader : Reader) : Reader :=
  let next := reader.peek
  if _h : next.1.kind = .invalid then
    (next.2.advance.2.report (invalidCharacter next.1)).skipInvalid
  else next.2
termination_by reader.lexer.size
decreasing_by exact size_advance_peek (by rw [_h]; decide)

def expect (kind : Kind) (what : String) (reader : Reader) : Token × Reader :=
  let next := reader.skipInvalid.peek
  if next.1.kind = kind then next.2.advance
  else (.empty, next.2.complain (Message.expected what next.1) next.1)

-- Passes all tokens that are left.
def skipAll (reader : Reader) : Reader :=
  let next := reader.peek
  if _h : next.1.kind = .eof then next.2 else next.2.advance.2.skipAll
termination_by reader.lexer.size
decreasing_by exact size_advance_peek _h

def number : Step := fun reader =>
  let whole := reader.advance
  let next := whole.2.peek
  if next.1.kind = .period then
    let point := next.2.advance
    let fraction := point.2.peek
    if fraction.1.kind = .number then
      let value := Decimal.ofParts whole.1.lexeme.toList fraction.1.lexeme.toList
      let reader := fraction.2.advance.2
      (.real whole.1 point.1 fraction.1 value,
        if Rule.touching whole.1 point.1 fraction.1 then reader
        else reader.complain Message.spacedReal whole.1)
    else
      let message := Message.expectedFraction fraction.1
      (.erroneous point.1 message, fraction.2.complain message fraction.1)
  else
    let digits := whole.1.lexeme.toList
    if Decimal.maxDigits < digits.length then
      let message := Message.tooLong whole.1
      (.erroneous whole.1 message, next.2.complain message whole.1)
    else (.integer whole.1 (Decimal.digitsValue digits), next.2)

def parenthesized (nested : Step) : Step := fun reader =>
  let inner := nested reader.advance.2
  (inner.1, (inner.2.expect .rightParen "')' after expression").2)

def missingOperand : Step := fun reader =>
  let next := reader.peek
  let message := Message.expectedExpression next.1
  let reported := next.2.complain message next.1
  (.erroneous next.1 message, if next.1.kind.closes then reported else reported.advance.2)

def primary (nested : Step) : Step := fun reader =>
  let next := reader.peek
  match next.1.kind with
  | .number => number next.2
  | .identifier => (.reference next.1 (next.1.text.getD ""), next.2.advance.2)
  | .leftParen => parenthesized nested next.2
  | .invalid =>
    (.erroneous next.1 (Message.invalidCharacter next.1),
      next.2.advance.2.report (invalidCharacter next.1))
  | _ => missingOperand next.2

-- Every operator of a class with its right operand. There are at most as many as there are tokens,
-- which is the fuel.
def operators (isOperator : Kind → Bool) (operand : Step) :
    Nat → Expression → Reader → Expression × Reader
  | 0, left, reader => (left, reader)
  | fuel + 1, left, reader =>
    let next := reader.peek
    if isOperator next.1.kind then
      let operator := next.2.advance
      let right := operand operator.2
      operators isOperator operand fuel (.binary left operator.1 right.1) right.2
    else (left, next.2)

def chain (isOperator : Kind → Bool) (operand : Step) : Step := fun reader =>
  let first := operand reader
  operators isOperator operand (first.2.lexer.drain.tokens.length + 1) first.1 first.2

def comparison (nested : Step) : Step :=
  chain Kind.isComparison (chain Kind.isAdditive (chain Kind.isMultiplicative (primary nested)))

def binding (nested : Step) : Step := fun reader =>
  let letToken := reader.advance
  let name := letToken.2.expect .identifier "identifier after 'let'"
  let equals := name.2.expect .equals "'=' after let name"
  let body := nested equals.2
  (.binding letToken.1 name.1 (name.1.text.getD "") equals.1 body.1, body.2)

def conditional (nested : Step) : Step := fun reader =>
  let ifToken := reader.advance
  let condition := nested ifToken.2
  let thenToken := condition.2.expect .thenWord "'then'"
  let body := nested thenToken.2
  let next := body.2.peek
  if next.1.kind = .elseWord then
    let elseToken := next.2.advance
    let otherwise := nested elseToken.2
    let endToken := otherwise.2.expect .endWord "'end'"
    (.ifThenElse ifToken.1 condition.1 thenToken.1 body.1 elseToken.1 otherwise.1 endToken.1,
      endToken.2)
  else
    let endToken := next.2.expect .endWord "'end'"
    (.ifThen ifToken.1 condition.1 thenToken.1 body.1 endToken.1 .empty, endToken.2)

def tooDeep : Step := fun reader =>
  let next := reader.peek
  let given := { next.2.complain Message.tooDeep next.1 with abandoned := true }
  (.erroneous next.1 Message.tooDeep, given.skipAll)

def enter (reader : Reader) : Reader := { reader with depth := reader.depth + 1 }

def leave (reader : Reader) : Reader := { reader with depth := reader.depth - 1 }

-- An expression, unless there are too many around it already. It is found to be too deep before
-- the fuel is used up.
def expression : Nat → Step
  | 0 => tooDeep
  | fuel + 1 => fun reader =>
    if maxNesting ≤ reader.depth then tooDeep reader
    else
      let next := reader.enter.peek
      let inner := match next.1.kind with
        | .letWord => binding (expression fuel) next.2
        | .ifWord => conditional (expression fuel) next.2
        | _ => comparison (expression fuel) next.2
      (inner.1, inner.2.leave)

-- Reads the next expression.
def takeExpression (reader : Reader) : Expression × Reader :=
  let taken := expression (maxNesting + 1) { reader with abandoned := false }
  if taken.2.consumed = reader.consumed then
    let next := taken.2.peek
    (taken.1, if next.1.kind = .eof then next.2 else next.2.advance.2)
  else taken

def passRest (reported : Bool) (reader : Reader) : Reader :=
  let next := reader.peek
  if _h : next.1.kind = .eof then next.2
  else
    let taken := next.2.advance
    if taken.1.kind = .invalid then
      (taken.2.report (invalidCharacter taken.1)).passRest reported
    else if reported then taken.2.passRest reported
    else (taken.2.complain (Message.leftOver taken.1) taken.1).passRest true
termination_by reader.lexer.size
decreasing_by
  · exact size_advance_peek _h
  · exact size_advance_peek _h
  · unfold complain
    split <;> exact size_advance_peek _h

-- Reports the tokens that are left.
def expectEnd (reader : Reader) : Reader := reader.passRest false

end Reader

end Calculator
