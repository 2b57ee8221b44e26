import Calculator.Evaluation
import Calculator.Text.Blank

namespace Calculator

-- What the log tells.
inductive LogEntry where
  | loaded (path : String) (entries : Data)
  | diagnosed (diagnostic : Diagnostic)
  | compiled (nodeName : String)
  | failed (error : EvaluationError)
  deriving Inhabited

def LogEntry.render : LogEntry → String
  | loaded path entries =>
    "DEBUG exprlib.config: loaded configuration from " ++ path ++ ": " ++ entries.render
  | diagnosed diagnostic =>
    let span := diagnostic.span.getD Token.empty.span
    "DEBUG exprlib.parser.parser: " ++ diagnostic.kind.name ++ " error at " ++
      toString span.line ++ ":" ++ toString span.column ++ ": " ++ diagnostic.message
  | compiled nodeName => "DEBUG exprlib.core.codegen: compiled " ++ nodeName
  | failed error => "DEBUG exprlib.core.codegen: evaluation failed: " ++ error.message

-- The answer to a line: its text, whether it is a value, and what the log tells about it.
structure Reply where
  ok : Bool
  lines : List String
  log : List LogEntry
  deriving Inhabited

-- Errors that are not about the expression. They are no answers but end the session.
def CompileError.isFatal : CompileError → Bool
  | foreign _ | unreadable _ | valueTooLarge => true
  | _ => false

-- Answers a line with its value, with its diagnostics, or with the error of its evaluation.
def respond (settings : Settings) (line : String) : Except CompileError Reply :=
  let reading := Reading.ofString line
  if reading.diagnostics ≠ [] then
    .ok
      { ok := false
        lines := reading.diagnostics.map Diagnostic.answer
        log := reading.diagnostics.map .diagnosed }
  else
    match Compiler.generate Reading.maxHeight settings reading.expression with
    | .error error =>
      if error.isFatal then .error error
      else .ok { ok := false, lines := ["error: " ++ error.message], log := [] }
    | .ok program =>
      let compiled := LogEntry.compiled reading.expression.nodeName
      match program.value with
      | .ok value => .ok { ok := true, lines := [Decimal.answer value], log := [compiled] }
      | .error error =>
        .ok
          { ok := false
            lines := ["error: " ++ error.message]
            log := [compiled, .failed error] }

-- What a session wrote, and the error that ended it early.
structure Transcript where
  output : String := ""
  log : List LogEntry := []
  error : Option CompileError := none
  deriving Inhabited

namespace Transcript

-- A transcript and one that follows it, unless the first ended early.
def followedBy (first second : Transcript) : Transcript :=
  match first.error with
  | some _ => first
  | none =>
    { output := first.output ++ second.output
      log := first.log ++ second.log
      error := second.error }

end Transcript

-- The lines of an answer with a line end behind each.
def unlines (lines : List String) : String := String.join (lines.map (· ++ "\n"))

-- What a session writes for one line: the prompt, and an answer with an empty line behind it if
-- the line is not blank.
def converse (settings : Settings) (line : String) : Transcript :=
  if Text.isBlankLine line then { output := settings.prompt }
  else
    match respond settings line with
    | .ok reply =>
      { output := settings.prompt ++ unlines reply.lines ++ "\n", log := reply.log }
    | .error error => { output := settings.prompt, error := some error }

-- What a session writes for lines up to the end of the input.
def session (settings : Settings) : List String → Transcript
  | [] => { output := settings.prompt ++ "\n" }
  | line :: rest => (converse settings line).followedBy (session settings rest)

end Calculator
