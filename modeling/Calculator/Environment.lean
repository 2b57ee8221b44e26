import Calculator.Span
import Calculator.Text.Quoted

namespace Calculator

inductive EvaluationError where
  | undefined (name : String) (span : Option Span)
  | divisionByZero (span : Span)
  deriving DecidableEq, Inhabited

namespace EvaluationError

def message : EvaluationError → String
  | undefined name _ => "Undefined variable " ++ Text.quoted name
  | divisionByZero _ => "Division by zero"

def span : EvaluationError → Option Span
  | undefined _ span => span
  | divisionByZero span => some span

end EvaluationError

-- The names bound so far. A later binding stands before an earlier one and hides it, so the list
-- tells the whole sequence of bindings.
structure Environment (α : Type) where
  bindings : List (String × α) := []
  deriving DecidableEq, Inhabited

namespace Environment

variable {α : Type}

def define (name : String) (value : α) (environment : Environment α) : Environment α :=
  ⟨(name, value) :: environment.bindings⟩

def find? (name : String) (environment : Environment α) : Option α :=
  environment.bindings.lookup name

-- The value of a name; `span` tells where it was asked for.
def get (name : String) (span : Option Span) (environment : Environment α) :
    Except EvaluationError α :=
  match environment.find? name with
  | some value => .ok value
  | none => .error (.undefined name span)

theorem find?_define_self (name : String) (value : α) (environment : Environment α) :
    (environment.define name value).find? name = some value := by
  simp [define, find?]

theorem find?_define_of_ne {name other : String} (value : α) (environment : Environment α)
    (h : other ≠ name) : (environment.define name value).find? other = environment.find? other := by
  have hb : (other == name) = false := by simp [h]
  simp [define, find?, List.lookup_cons, hb]

end Environment

end Calculator
