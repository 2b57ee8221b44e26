import Calculator.Compiler
import Calculator.Parser

namespace Calculator

inductive Failure where
  | compile (error : CompileError)
  | run (error : EvaluationError)
  deriving DecidableEq, Inhabited

def Failure.message : Failure → String
  | compile error => error.message
  | run error => error.message

-- Reads, compiles and runs one expression. A text with problems is not compiled.
def evaluate (source : Source) (settings : Settings := {}) : Except Failure Float :=
  let reading := Reading.ofSource source
  if reading.diagnostics ≠ [] then .error (.compile (.diagnosed reading.diagnostics))
  else
    match Compiler.generate Reading.maxHeight settings reading.expression with
    | .error error => .error (.compile error)
    | .ok program => program.value.mapError .run

end Calculator
