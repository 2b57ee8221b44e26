import Calculator.Environment
import Calculator.Kind
import Calculator.Settings

namespace Calculator

abbrev Program := EStateM EvaluationError (Environment Float) Float

-- Comparisons yield one or zero.
def truth (holds : Bool) : Float := if holds then Decimal.one else Decimal.zero

inductive Operator where
  | add
  | subtract
  | multiply
  | divide
  | less
  | lessEqual
  | greater
  | greaterEqual
  | equal
  deriving DecidableEq, Inhabited

namespace Operator

def ofKind? : Kind → Option Operator
  | .plus => some add
  | .minus => some subtract
  | .star => some multiply
  | .slash => some divide
  | .less => some less
  | .lessEqual => some lessEqual
  | .greater => some greater
  | .greaterEqual => some greaterEqual
  | .equalEqual => some equal
  | _ => none

-- Exactly the binary operators have an operation.
theorem isSome_ofKind? (kind : Kind) : (ofKind? kind).isSome = kind.isBinary := by
  cases kind <;> rfl

-- The quotient by a zero: NaN if the dividend is zero or NaN, else the infinity whose sign is the
-- product of the two signs.
def divideByZero (dividend divisor : Float) : Float :=
  if dividend == Decimal.zero || dividend.isNaN then Decimal.nan
  else
    Decimal.withSign (Decimal.isNegative dividend != Decimal.isNegative divisor) Decimal.infinity

-- A quotient; `span` is where the operator stands.
def quotient (policy : DivisionPolicy) (span : Span) (dividend divisor : Float) :
    Except EvaluationError Float :=
  if divisor == Decimal.zero then
    match policy with
    | .error => .error (.divisionByZero span)
    | .ieee => .ok (divideByZero dividend divisor)
  else .ok (dividend / divisor)

def apply (policy : DivisionPolicy) (span : Span) (left right : Float) :
    Operator → Except EvaluationError Float
  | add => .ok (left + right)
  | subtract => .ok (left - right)
  | multiply => .ok (left * right)
  | divide => quotient policy span left right
  | less => .ok (truth (left < right))
  | lessEqual => .ok (truth (left ≤ right))
  | greater => .ok (truth (right < left))
  | greaterEqual => .ok (truth (right ≤ left))
  | equal => .ok (truth (left == right))

end Operator

-- An operation and the program of its right operand.
structure Step where
  operation : Float → Float → Except EvaluationError Float
  right : Program

namespace Program

def constant (value : Float) : Program := fun environment => .ok value environment

def reference (name : String) (span : Span) : Program := fun environment =>
  match environment.get name (some span) with
  | .ok value => .ok value environment
  | .error error => .error error environment

-- Runs one of two programs: the second if the condition is zero, which NaN is not.
def branch (condition body otherwise : Program) : Program := fun environment =>
  match condition environment with
  | .ok value environment =>
    if value == Decimal.zero then otherwise environment else body environment
  | .error error environment => .error error environment

-- Binds a name to a value after the value was computed.
def bindName (name : String) (body : Program) : Program := fun environment =>
  match body environment with
  | .ok value environment => .ok value (environment.define name value)
  | .error error environment => .error error environment

-- Applies operations one after the other, each to the value so far and its right operand.
def runSteps (value : Float) (environment : Environment Float) :
    List Step → EStateM.Result EvaluationError (Environment Float) Float
  | [] => .ok value environment
  | step :: rest =>
    match step.right environment with
    | .error error environment => .error error environment
    | .ok operand environment =>
      match step.operation value operand with
      | .error error => .error error environment
      | .ok value => runSteps value environment rest

def sequence (first : Program) (steps : List Step) : Program := fun environment =>
  match first environment with
  | .ok value environment => runSteps value environment steps
  | .error error environment => .error error environment

-- The value of a program that starts without bindings.
def value (program : Program) : Except EvaluationError Float :=
  match program {} with
  | .ok value _ => .ok value
  | .error error _ => .error error

end Program

end Calculator
