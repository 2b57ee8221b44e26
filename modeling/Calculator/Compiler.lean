import Calculator.Diagnostic
import Calculator.Expression.Walk
import Calculator.Program

namespace Calculator

inductive CompileError where
  | diagnosed (diagnostics : List Diagnostic)
  | erroneous (span : Span) (message : String)
  | unknownOperator (operator : Token)
  | missingToken
  | tooDeep (span : Span)
  -- nothing is known about how to compute a node of this name
  | uncompilable (nodeName : String)
  | foreign (sort : DataSort)
  -- the text of a whole number is no numeral
  | unreadable (text : String)
  -- the value of a false condition is beyond the finite doubles
  | valueTooLarge
  deriving DecidableEq, Inhabited

namespace CompileError

def message : CompileError → String
  | diagnosed diagnostics =>
    "Expression has " ++ toString diagnostics.length ++ " diagnostic(s)"
  | erroneous span message =>
    "Cannot generate code for an erroneous expression at " ++ span.place ++ ": " ++ message
  | unknownOperator operator =>
    "Unknown binary operator " ++ operator.describe ++ " at " ++ operator.span.place
  | missingToken => "Cannot generate code for an expression with missing tokens"
  | tooDeep span => "Expression at " ++ span.place ++ " is nested too deeply to compile"
  | uncompilable nodeName => "Cannot compile expression type: " ++ nodeName
  | foreign sort => "Not an expression node: " ++ sort.name
  | unreadable text => "could not convert string to float: " ++ Text.quoted text
  | valueTooLarge => "int too large to convert to float"

def diagnostics : CompileError → List Diagnostic
  | diagnosed diagnostics => diagnostics
  | _ => []

end CompileError

namespace Expression

def fault? : Expression → Option CompileError
  | erroneous token message => some (.erroneous token.span message)
  | binary _ operator _ =>
    if operator.kind.isBinary then none else some (.unknownOperator operator)
  | _ => none

-- Refuses an expression that was not read completely. The first node with a fault counts, then a
-- foreign value, then missing tokens.
def checkComplete (expression : Expression) : Except CompileError Unit :=
  let nodes := expression.nodeWalk
  match nodes.visited.findSome? fault? with
  | some error => .error error
  | none =>
    match nodes.foreign with
    | some sort => .error (.foreign sort)
    | none =>
      if expression.tokenWalk.visited.any Token.isEmpty then .error .missingToken else .ok ()

-- A chain of operators counts as one level, whatever its length.
def chainLevel : Expression → Nat
  | binary .. => 1
  | _ => 0

-- The height of a node without the level that it adds if it is a chain: one more than the
-- highest node directly below it, or for a chain the height of its highest operand.
def operandHeight : Expression → Nat
  | binary left _ right =>
    max left.operandHeight (right.operandHeight + right.chainLevel)
  | ifThen _ condition _ body _ _ =>
    1 + max (condition.operandHeight + condition.chainLevel)
      (body.operandHeight + body.chainLevel)
  | ifThenElse _ condition _ body _ otherwise _ =>
    1 + max (condition.operandHeight + condition.chainLevel)
      (max (body.operandHeight + body.chainLevel)
        (otherwise.operandHeight + otherwise.chainLevel))
  | binding _ _ _ _ body => 1 + (body.operandHeight + body.chainLevel)
  | integer .. | real .. | reference .. | erroneous .. | foreign _ => 1

def height (expression : Expression) : Nat := expression.operandHeight + expression.chainLevel

end Expression

-- A program as the compiler builds it: a first operand and the steps that follow it, the last
-- step first.
structure Chain where
  first : Program
  steps : List Step := []

namespace Chain

def step (chain : Chain) (operation : Float → Float → Except EvaluationError Float)
    (right : Program) : Chain :=
  { chain with steps := ⟨operation, right⟩ :: chain.steps }

def program (chain : Chain) : Program := Program.sequence chain.first chain.steps.reverse

end Chain

namespace Compiler

-- The value of an `if` without `else` whose condition is false.
def otherwiseProgram (settings : Settings) : Except CompileError Program :=
  match settings.falseValue.toFloat? with
  | some value => .ok (.constant value)
  | none => .error .valueTooLarge

-- The value that the token of a whole number denotes; without a text it denotes zero.
def wholeValue (token : Token) : Except CompileError Float :=
  let text := token.text.getD ""
  if text = "" then .ok Decimal.zero
  else
    match Decimal.ofString? text with
    | some value => .ok value
    | none => .error (.unreadable text)

-- The chain of an expression; all but binary nodes are chains without steps.
def chain (settings : Settings) : Expression → Except CompileError Chain
  | .integer token _ => do
    let value ← wholeValue token
    return { first := .constant value }
  | .real _ _ _ value => .ok { first := .constant value }
  | .reference token name => .ok { first := .reference name token.span }
  | .binary left operator right => do
    let left ← chain settings left
    match Operator.ofKind? operator.kind with
    | none => throw (.unknownOperator operator)
    | some operation =>
      let right ← chain settings right
      return left.step (fun x y => operation.apply settings.divisionByZero operator.span x y)
        right.program
  | .ifThen _ condition _ body _ _ => do
    let condition ← chain settings condition
    let body ← chain settings body
    let otherwise ← otherwiseProgram settings
    return { first := .branch condition.program body.program otherwise }
  | .ifThenElse _ condition _ body _ otherwise _ => do
    let condition ← chain settings condition
    let body ← chain settings body
    let otherwise ← chain settings otherwise
    return { first := .branch condition.program body.program otherwise.program }
  | .binding _ _ name _ body => do
    let body ← chain settings body
    return { first := .bindName name body.program }
  | .erroneous token message => throw (.uncompilable (Expression.erroneous token message).nodeName)
  | .foreign sort => throw (.uncompilable sort.name)

def compile (settings : Settings) (expression : Expression) : Except CompileError Program :=
  (chain settings expression).map Chain.program

-- The program of an expression, if it is complete and its height is within a limit.
def generate (limit : Nat) (settings : Settings) (expression : Expression) :
    Except CompileError Program := do
  expression.checkComplete
  if limit < expression.height then throw (.tooDeep expression.span)
  compile settings expression

end Compiler

end Calculator
