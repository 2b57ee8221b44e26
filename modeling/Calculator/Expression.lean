import Calculator.Data
import Calculator.Token

namespace Calculator

-- A node keeps the tokens it was read from; `Token.empty` stands for one that was missing.
inductive Expression where
  -- a whole number: its digits and the number they denote
  | integer (token : Token) (value : Int)
  | real (whole point fraction : Token) (value : Float)
  | binary (left : Expression) (operator : Token) (right : Expression)
  | reference (token : Token) (name : String)
  -- `if condition then body end`; `elseToken` is normally `Token.empty`
  | ifThen (ifToken : Token) (condition : Expression) (thenToken : Token) (body : Expression)
      (endToken elseToken : Token)
  | ifThenElse (ifToken : Token) (condition : Expression) (thenToken : Token) (body : Expression)
      (elseToken : Token) (otherwise : Expression) (endToken : Token)
  | binding (letToken nameToken : Token) (name : String) (equals : Token) (body : Expression)
  -- stands for text that makes no sense
  | erroneous (token : Token) (message : String)
  -- a value in the place of an expression
  | foreign (sort : DataSort)
  deriving DecidableEq, Inhabited

namespace Expression

-- A condition with or without the other branch. A null value there means that there is none.
def conditional (ifToken : Token) (condition : Expression) (thenToken : Token) (body : Expression)
    (endToken elseToken : Token) (otherwise : Option Expression) : Expression :=
  match otherwise with
  | none | some (.foreign .null) =>
    .ifThen ifToken condition thenToken body endToken elseToken
  | some otherwise => .ifThenElse ifToken condition thenToken body elseToken otherwise endToken

def nodeName : Expression → String
  | integer .. => "IntegerNumberExpression"
  | real .. => "RealNumberExpression"
  | binary .. => "BinaryExpression"
  | reference .. => "VariableExpression"
  | ifThen .. | ifThenElse .. => "IfThenExpression"
  | binding .. => "LetExpression"
  | erroneous .. => "ErrorExpression"
  | foreign sort => sort.name

-- The place a message about the node points at: the token that makes the node what it is. The
-- span of a real number is as long as its three tokens together.
def span : Expression → Span
  | integer token _ | reference token _ | erroneous token _ => token.span
  | real whole point fraction _ =>
    { whole.span with length := whole.span.length + point.span.length + fraction.span.length }
  | binary _ operator _ => operator.span
  | ifThen ifToken .. | ifThenElse ifToken .. => ifToken.span
  | binding letToken .. => letToken.span
  | foreign _ => Token.empty.span

end Expression

end Calculator
