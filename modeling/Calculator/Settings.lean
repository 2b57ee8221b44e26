import Calculator.Data

namespace Calculator

-- What a division by zero yields: a failure, or infinity or NaN as for any other division.
inductive DivisionPolicy where
  | error
  | ieee
  deriving DecidableEq, Inhabited

namespace DivisionPolicy

def all : List DivisionPolicy := [error, ieee]

def name : DivisionPolicy → String
  | error => "error"
  | ieee => "ieee"

def ofData? : Data → Option DivisionPolicy
  | .text word => all.find? fun policy => policy.name = word
  | _ => none

end DivisionPolicy

structure Settings where
  divisionByZero : DivisionPolicy := .error
  -- the value of an `if` without `else` whose condition is false
  falseValue : Number := .float Decimal.zero
  prompt : String := "Expression> "
  deriving DecidableEq, Inhabited

-- Why a mapping holds no settings.
inductive SettingsError where
  | unknownKeys (keys : List String)
  | badDivision (got : Data)
  | badFalseValue (got : Data)
  | badPrompt (got : Data)
  -- what has to be named holds an integer that is too long to be written out
  | unwritable
  deriving Inhabited

namespace SettingsError

def message : SettingsError → String
  | unknownKeys keys => "Unknown configuration keys: " ++ ", ".intercalate keys
  | badDivision got =>
    "division_by_zero must be one of " ++ ", ".intercalate (DivisionPolicy.all.map (·.name)) ++
      ", got " ++ got.render
  | badFalseValue got => "false_condition_value must be a number, got " ++ got.render
  | badPrompt got => "prompt must be a string, got " ++ got.render
  | unwritable =>
    "Exceeds the limit (" ++ toString Decimal.maxDigits ++ " digits) for integer string " ++
      "conversion; use sys.set_int_max_str_digits() to increase the limit"

-- Errors that are no answers to a bad mapping but end the program.
def isFatal : SettingsError → Bool
  | unwritable => true
  | unknownKeys _ | badDivision _ | badFalseValue _ | badPrompt _ => false

-- Refuses a mapping with an error that shows some of its data.
def refuse {α : Type} (shown : List Data) (error : SettingsError) : Except SettingsError α :=
  .error (if shown.all Data.isWritable then error else .unwritable)

end SettingsError

namespace Settings

def keys : List String := ["division_by_zero", "false_condition_value", "prompt"]

def isKnown : Data → Bool
  | .text key => keys.contains key
  | _ => false

def entry? (key : String) (entries : List (Data × Data)) : Option Data :=
  (entries.find? fun entry => match entry.1 with
    | .text word => word = key
    | _ => false).map (·.2)

-- The value of a setting, which is a default one if the key is absent.
def valueOf {α : Type} (key : String) (default : α) (ofData? : Data → Option α)
    (bad : Data → SettingsError) (entries : List (Data × Data)) : Except SettingsError α :=
  match entry? key entries with
  | none => .ok default
  | some data =>
    match ofData? data with
    | some value => .ok value
    | none => SettingsError.refuse [data] (bad data)

def divisionOf : List (Data × Data) → Except SettingsError DivisionPolicy :=
  valueOf "division_by_zero" ({} : Settings).divisionByZero DivisionPolicy.ofData? .badDivision

def falseValueOf : List (Data × Data) → Except SettingsError Number :=
  valueOf "false_condition_value" ({} : Settings).falseValue Number.ofData? .badFalseValue

def promptOf : List (Data × Data) → Except SettingsError String :=
  valueOf "prompt" ({} : Settings).prompt Data.text? .badPrompt

-- The keys of a mapping that no setting has.
def strangers (entries : List (Data × Data)) : List Data :=
  (entries.map (·.1)).filter (!isKnown ·)

-- The keys that no setting has as texts, in alphabetical order.
def unknownKeys (entries : List (Data × Data)) : List String :=
  ((strangers entries).map Data.plain).mergeSort

-- Reads settings from a mapping. Unknown keys are refused first, then the first bad value.
def ofEntries (entries : List (Data × Data)) : Except SettingsError Settings := do
  let unknown := unknownKeys entries
  if unknown ≠ [] then SettingsError.refuse (strangers entries) (.unknownKeys unknown)
  let divisionByZero ← divisionOf entries
  let falseValue ← falseValueOf entries
  let prompt ← promptOf entries
  return { divisionByZero, falseValue, prompt }

end Settings

end Calculator
