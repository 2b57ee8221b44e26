import Calculator.Session
import Calculator.Settings.File

namespace Calculator.CommandLine

inductive Flag where
  | help
  | expression
  | config
  | verbose
  deriving DecidableEq, Inhabited

namespace Flag

def all : List Flag := [help, expression, config, verbose]

def letter : Flag → Char
  | help => 'h'
  | expression => 'e'
  | config => 'c'
  | verbose => 'v'

def long : Flag → String
  | help => "--help"
  | expression => "--expression"
  | config => "--config"
  | verbose => "--verbose"

def short (flag : Flag) : String := String.ofList ['-', flag.letter]

def takesValue : Flag → Bool
  | expression | config => true
  | help | verbose => false

def title (flag : Flag) : String := flag.short ++ "/" ++ flag.long

def ofLetter? (c : Char) : Option Flag := all.find? fun flag => flag.letter = c

end Flag

inductive UsageError where
  | ambiguous (argument : String)
  | missingValue (flag : Flag)
  | unwantedValue (flag : Flag) (value : String)
  | unrecognized (arguments : List String)
  deriving DecidableEq, Inhabited

def UsageError.message : UsageError → String
  | ambiguous argument =>
    "ambiguous option: " ++ argument ++ " could match " ++
      ", ".intercalate (Flag.all.map Flag.long)
  | missingValue flag => "argument " ++ flag.title ++ ": expected one argument"
  | unwantedValue flag value =>
    "argument " ++ flag.title ++ ": ignored explicit argument " ++ Text.quoted value
  | unrecognized arguments => "unrecognized arguments: " ++ " ".intercalate arguments

-- The value of an option. Two hyphens attached to it are dropped, which leaves it without a text.
inductive Operand where
  | text (value : String)
  | dropped
  deriving DecidableEq, Inhabited

def Operand.ofAttached (chars : List Char) : Operand :=
  if chars = ['-', '-'] then dropped else text (String.ofList chars)

-- The options in one argument: those without a value, and then perhaps one that takes a value,
-- which is attached or expected as the next argument.
structure Cluster where
  flags : List Flag := []
  last : Option (Flag × Option Operand) := none
  deriving DecidableEq, Inhabited

namespace Cluster

def addFlag (flag : Flag) (cluster : Cluster) : Cluster :=
  { cluster with flags := flag :: cluster.flags }

def single (flag : Flag) : Cluster :=
  if flag.takesValue then { last := some (flag, none) } else { flags := [flag] }

-- An option with all that is attached to it as its value.
def ofValue (flag : Flag) (attached : List Char) : Except UsageError Cluster :=
  if flag.takesValue then .ok { last := some (flag, some (.ofAttached attached)) }
  else .error (.unwantedValue flag (String.ofList attached))

-- The options joined behind one hyphen. Behind one without a value the letters of others may
-- follow, behind one that takes a value all is its value.
def ofLetters (flag : Flag) : List Char → Except UsageError Cluster
  | [] => .ok (single flag)
  | c :: rest =>
    match flag.takesValue, Flag.ofLetter? c with
    | false, some next => (ofLetters next rest).map (addFlag flag)
    | _, _ => ofValue flag (c :: rest)

-- A short option and what stands behind its letter. An equals sign right there is passed, and
-- with nothing behind it the value is empty.
def ofShort (flag : Flag) : List Char → Except UsageError Cluster
  | ['='] => ofValue flag []
  | '=' :: attached | attached => ofLetters flag attached

def ofLong (flag : Flag) : List Char → Except UsageError Cluster
  | [] => .ok (single flag)
  | _ :: attached => ofValue flag attached

end Cluster

-- What an argument is by itself. Whether its options are well formed matters only when its turn
-- comes.
inductive Argument where
  | plain (text : String)
  -- looks like an option and is none
  | stray (text : String)
  | options (cluster : Except UsageError Cluster)
  deriving Inhabited

namespace Argument

-- Whether the text behind a hyphen is a number. A line end may follow.
def isNumber (chars : List Char) : Bool :=
  let chars := if chars.getLast? = some '\n' then chars.dropLast else chars
  let whole := chars.takeWhile Text.isDecimalDigit
  match chars.dropWhile Text.isDecimalDigit with
  | [] => whole ≠ []
  | '.' :: fraction => fraction ≠ [] && fraction.all Text.isDecimalDigit
  | _ => false

-- A long option, cut or not. The value stands behind an equals sign.
def ofLong (text : String) : Except UsageError Argument :=
  let chars := text.toList
  let name := chars.takeWhile (· ≠ '=')
  match Flag.all.filter fun flag => name.isPrefixOf flag.long.toList with
  | [flag] => .ok (.options (Cluster.ofLong flag (chars.dropWhile (· ≠ '='))))
  | [] => .ok (if chars.contains ' ' then .plain text else .stray text)
  | _ => .error (.ambiguous text)

def ofString (text : String) : Except UsageError Argument :=
  match text.toList with
  | '-' :: '-' :: _ => ofLong text
  | '-' :: c :: rest =>
    match Flag.ofLetter? c with
    | some flag => .ok (.options (Cluster.ofShort flag rest))
    | none =>
      .ok (if isNumber (c :: rest) || (c :: rest).contains ' ' then .plain text else .stray text)
  | _ => .ok (.plain text)

-- The arguments of a command line. Behind two hyphens all are plain.
def ofStrings : List String → Except UsageError (List Argument)
  | [] => .ok []
  | text :: rest => do
    if text = "--" then return .stray text :: rest.map .plain
    let argument ← ofString text
    return argument :: (← ofStrings rest)

end Argument

structure Options where
  expression : Option Operand := none
  config : Option Operand := none
  verbose : Bool := false
  deriving DecidableEq, Inhabited

inductive Request where
  | help
  | run (options : Options)
  | refuse (error : UsageError)
  deriving DecidableEq, Inhabited

namespace Options

def setValue (flag : Flag) (value : Operand) (options : Options) : Options :=
  match flag with
  | .expression => { options with expression := some value }
  | .config => { options with config := some value }
  | .help | .verbose => options

def apply (flags : List Flag) (options : Options) : Options :=
  if flags.contains .verbose then { options with verbose := true } else options

end Options

-- Carries out arguments from the first to the last. `extra` holds the texts that mean nothing,
-- the last first.
def carryOut (options : Options) (extra : List String) : List Argument → Request
  | [] => if extra = [] then .run options else .refuse (.unrecognized extra.reverse)
  | .plain text :: rest | .stray text :: rest => carryOut options (text :: extra) rest
  | .options (.error error) :: _ => .refuse error
  | .options (.ok cluster) :: rest =>
    let isHelp := cluster.flags.contains .help
    let options := options.apply cluster.flags
    match cluster.last, rest with
    | none, rest => if isHelp then .help else carryOut options extra rest
    | some (flag, some value), rest =>
      if isHelp then .help else carryOut (options.setValue flag value) extra rest
    | some (flag, none), .plain value :: rest =>
      if isHelp then .help else carryOut (options.setValue flag (.text value)) extra rest
    | some (flag, none), _ => .refuse (.missingValue flag)

def Request.ofStrings (arguments : List String) : Request :=
  match Argument.ofStrings arguments with
  | .error error => .refuse error
  | .ok arguments => carryOut {} [] arguments

def usage : String := "usage: exprlib [-h] [-e EXPRESSION] [-c CONFIG] [-v]\n"

def helpText : String :=
  usage ++ unlines
    ["",
     "Evaluate arithmetic expressions with let and if-then.",
     "",
     "options:",
     "  -h, --help            show this help message and exit",
     "  -e EXPRESSION, --expression EXPRESSION",
     "                        evaluate EXPRESSION once and exit",
     "  -c CONFIG, --config CONFIG",
     "                        YAML file with evaluator settings",
     "  -v, --verbose         enable debug logging"]

-- Errors that end the program without an exit status.
inductive FatalError where
  | compile (error : CompileError)
  | load (error : LoadError)
  -- the option for an expression lost its text
  | noExpression
  deriving Inhabited

def FatalError.message : FatalError → String
  | compile error => error.message
  | load error => error.message
  | noExpression => "the expression has no text"

-- What a call of the program writes and how it ends.
structure Outcome where
  exit : Except FatalError Nat
  output : String := ""
  log : String := ""

namespace Outcome

def ofTranscript (verbose : Bool) (log : List LogEntry) (status : Nat) (transcript : Transcript) :
    Outcome :=
  { exit := match transcript.error with
      | some error => .error (.compile error)
      | none => .ok status
    output := transcript.output
    log := if verbose then unlines ((log ++ transcript.log).map LogEntry.render) else "" }

end Outcome

-- Answers one expression. The status tells whether it has a value.
def answerOnce (settings : Settings) (expression : String) : Nat × Transcript :=
  match respond settings expression with
  | .ok reply => (if reply.ok then 0 else 1, { output := unlines reply.lines, log := reply.log })
  | .error error => (0, { error := some error })

-- A call that is ready to work: its options, its settings and what the log tells so far.
structure Job where
  options : Options
  settings : Settings := {}
  log : List LogEntry := []
  deriving Inhabited

namespace Job

-- What a call writes that cannot use its settings file.
def refused (options : Options) (log : List LogEntry) (message : String) : Outcome :=
  { exit := .ok 2
    log := (if options.verbose then unlines (log.map LogEntry.render) else "") ++
      "error: " ++ message ++ "\n" }

-- Loads the settings. Without a path, or with an empty one, there is no file.
def ofOptions (reader : DataReader) (options : Options) (files : String → FileState) :
    Except Outcome Job :=
  match options.config with
  | none | some .dropped | some (.text "") => .ok { options }
  | some (.text path) =>
    let path := normalPath path
    match Settings.readEntries reader path (files path) with
    | .error error =>
      if error.isFatal then .error { exit := .error (.load error) }
      else .error (refused options [] error.message)
    | .ok entries =>
      let log := [LogEntry.loaded path (.mapping entries)]
      match Settings.ofEntries entries with
      | .error error =>
        if error.isFatal then .error { exit := .error (.load (.settings error)) }
        else .error (refused options log error.message)
      | .ok settings => .ok { options, settings, log }

-- Makes a call ready, or tells what it writes instead of working.
def ofArguments (reader : DataReader) (arguments : List String) (files : String → FileState) :
    Except Outcome Job :=
  match Request.ofStrings arguments with
  | .help => .error { exit := .ok 0, output := helpText }
  | .refuse error =>
    .error { exit := .ok 2, log := usage ++ "exprlib: error: " ++ error.message ++ "\n" }
  | .run options => ofOptions reader options files

def work (job : Job) (input : List String) : Outcome :=
  match job.options.expression with
  | some .dropped =>
    { Outcome.ofTranscript job.options.verbose job.log 0 {} with exit := .error .noExpression }
  | some (.text expression) =>
    let (status, transcript) := answerOnce job.settings expression
    .ofTranscript job.options.verbose job.log status transcript
  | none => .ofTranscript job.options.verbose job.log 0 (session job.settings input)

end Job

-- What the program does when it is called with some arguments. `reader` reads settings files,
-- `files` tells what stands at a path and `input` holds the lines of the standard input.
def run (reader : DataReader) (arguments : List String) (files : String → FileState)
    (input : List String) : Outcome :=
  match Job.ofArguments reader arguments files with
  | .error outcome => outcome
  | .ok job => job.work input

end Calculator.CommandLine
