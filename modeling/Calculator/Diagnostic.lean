import Calculator.Span

namespace Calculator

-- A problem of the text is either a character that starts no token or a token out of place.
inductive DiagnosticKind where
  | lexical
  | syntactic
  deriving DecidableEq, Inhabited

namespace DiagnosticKind

def name : DiagnosticKind → String
  | lexical => "lexical"
  | syntactic => "syntax"

def title : DiagnosticKind → String
  | lexical => "Lexical"
  | syntactic => "Syntax"

end DiagnosticKind

structure Diagnostic where
  kind : DiagnosticKind
  message : String
  span : Option Span
  deriving DecidableEq, Inhabited

namespace Diagnostic

def render (diagnostic : Diagnostic) : String :=
  let body := diagnostic.kind.name ++ ": " ++ diagnostic.message
  match diagnostic.span with
  | some span => span.place ++ ": " ++ body
  | none => body

-- The line shown to someone who typed the expression: only the offset tells the place.
def answer (diagnostic : Diagnostic) : String :=
  let offset := match diagnostic.span with
    | some span => span.start
    | none => 0
  diagnostic.kind.title ++ ": " ++ diagnostic.message ++ " (" ++ toString offset ++ ")"

def renderAll (diagnostics : List Diagnostic) : String :=
  "\n".intercalate (diagnostics.map render)

end Diagnostic

end Calculator
