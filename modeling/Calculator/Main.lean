import Calculator.CommandLine
import Calculator.Yaml.Node

open Calculator CommandLine

-- What stands at a path. A path that exists and cannot be read is taken for a directory.
def fileState (path : String) : IO FileState := do
  try
    return .text (← IO.FS.readFile path)
  catch error =>
    match error with
    | .noFileOrDirectory .. => return .absent
    | _ => return .unreadable .directory

def writeOutcome (outcome : Outcome) : IO UInt32 := do
  (← IO.getStdout).putStr outcome.output
  (← IO.getStderr).putStr outcome.log
  match outcome.exit with
  | .ok status => return status.toUInt32
  | .error error => IO.eprintln error.message; return 1

-- Answers lines until the input ends.
partial def converseOn (job : Job) : IO UInt32 := do
  let stdout ← IO.getStdout
  stdout.putStr job.settings.prompt
  stdout.flush
  let line ← (← IO.getStdin).getLine
  if line = "" then
    stdout.putStr "\n"
    return 0
  let line := if line.endsWith "\n" then (line.dropEnd 1).toString else line
  let transcript := converse { job.settings with prompt := "" } line
  let outcome := Outcome.ofTranscript job.options.verbose [] 0 transcript
  let status ← writeOutcome outcome
  match outcome.exit with
  | .ok _ => converseOn job
  | .error _ => return status

def main (arguments : List String) : IO UInt32 := do
  let state ← match Request.ofStrings arguments with
    | .run { config := some (.text path), .. } => fileState (normalPath path)
    | _ => pure .absent
  match Job.ofArguments Yaml.ofText arguments fun _ => state with
  | .error outcome => writeOutcome outcome
  | .ok job =>
    if job.options.expression.isSome then writeOutcome (job.work [])
    else
      let _ ← writeOutcome (.ofTranscript job.options.verbose job.log 0 {})
      converseOn job
