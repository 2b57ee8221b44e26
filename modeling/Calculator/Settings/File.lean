import Calculator.Settings
import Calculator.Text.Quoted
import Calculator.Text.Split

namespace Calculator

-- Why a path cannot be read although something may stand there.
inductive ReadFault where
  | directory
  -- a part of the path in front of the last one is a file
  | insideFile
  | nameTooLong
  | nullCharacter
  deriving DecidableEq, Inhabited

def ReadFault.message (path : String) : ReadFault → String
  | directory => "[Errno 21] Is a directory: " ++ Text.quoted path
  | insideFile => "[Errno 20] Not a directory: " ++ Text.quoted path
  | nameTooLong => "[Errno 36] File name too long: " ++ Text.quoted path
  | nullCharacter => "embedded null byte"

-- What stands at a path.
inductive FileState where
  | absent
  | unreadable (fault : ReadFault)
  | text (content : String)
  deriving DecidableEq, Inhabited

-- Why a file yields no settings.
inductive LoadError where
  | notFound (path : String)
  | unreadable (fault : ReadFault) (path : String)
  | invalid (path problem : String)
  | failed (message : String)
  | notMapping (path : String)
  | settings (error : SettingsError)
  deriving Inhabited

namespace LoadError

def message : LoadError → String
  | notFound path => "Configuration file not found: " ++ path
  | unreadable fault path => fault.message path
  | invalid path problem => "Invalid YAML in " ++ path ++ ": " ++ problem
  | failed message => message
  | notMapping path => "Configuration in " ++ path ++ " must be a mapping"
  | settings error => error.message

-- Errors that are no answers to a bad file but end the program.
def isFatal : LoadError → Bool
  | unreadable .. | failed _ => true
  | settings error => error.isFatal
  | notFound _ | invalid .. | notMapping _ => false

end LoadError

-- Every end of a line becomes a newline.
def unifyLines : List Char → List Char
  | '\r' :: '\n' :: rest => '\n' :: unifyLines rest
  | '\r' :: rest => '\n' :: unifyLines rest
  | c :: rest => c :: unifyLines rest
  | [] => []

-- A path in its shortest form, without empty parts and parts that stay in place. Exactly two
-- slashes in front are kept as they are, any other number counts as one.
def normalPath (path : String) : String :=
  let chars := path.toList
  let parts := (Text.split '/' chars).filter fun part => part ≠ [] && part ≠ ['.']
  let body := ['/'].intercalate parts
  let front := match (chars.takeWhile (· = '/')).length with
    | 0 => []
    | 2 => ['/', '/']
    | _ => ['/']
  if front ++ body = [] then "." else String.ofList (front ++ body)

namespace Settings

-- The mapping in a file. A file without a value holds no keys.
def readEntries (reader : DataReader) (path : String) :
    FileState → Except LoadError (List (Data × Data))
  | .absent => .error (.notFound path)
  | .unreadable fault => .error (.unreadable fault path)
  | .text content =>
    match reader (unifyLines content.toList) with
    | .error (.malformed problem) => .error (.invalid path problem)
    | .error (.failed message) => .error (.failed message)
    | .ok .null => .ok []
    | .ok (.mapping entries) => .ok entries
    | .ok _ => .error (.notMapping path)

-- The settings in a file.
def load (reader : DataReader) (path : String) (state : FileState) :
    Except LoadError Settings := do
  let entries ← readEntries reader path state
  (ofEntries entries).mapError .settings

end Settings

end Calculator
