import Calculator.Decimal.Numeral
import Calculator.Decimal.Text
import Calculator.Text.Quoted

namespace Calculator

inductive DataSort where
  | null
  | bool
  | int
  | float
  | text
  | list
  | mapping
  -- any other sort, by its name; no setting has it
  | other (name : String)
  deriving DecidableEq, Inhabited

def DataSort.name : DataSort → String
  | null => "NoneType"
  | bool => "bool"
  | int => "int"
  | float => "float"
  | text => "str"
  | list => "list"
  | mapping => "dict"
  | other name => name

-- The keys of a mapping differ pairwise and keep the order in which they were first written.
inductive Data where
  | null
  | bool (value : Bool)
  | int (value : Int)
  | float (value : Float)
  | text (value : String)
  | list (items : List Data)
  | mapping (entries : List (Data × Data))
  deriving Inhabited

namespace Data

def sort : Data → DataSort
  | null => .null
  | bool _ => .bool
  | int _ => .int
  | float _ => .float
  | text _ => .text
  | list _ => .list
  | mapping _ => .mapping

mutual

-- A value as messages show it: texts are quoted.
def render : Data → String
  | null => "None"
  | bool true => "True"
  | bool false => "False"
  | int n => toString n
  | float x => Decimal.render x
  | text s => Text.quoted s
  | list items => "[" ++ ", ".intercalate (renderItems items) ++ "]"
  | mapping entries => "\x7b" ++ ", ".intercalate (renderEntries entries) ++ "\x7d"

def renderItems : List Data → List String
  | [] => []
  | item :: rest => item.render :: renderItems rest

def renderEntries : List (Data × Data) → List String
  | [] => []
  | (key, value) :: rest => (key.render ++ ": " ++ value.render) :: renderEntries rest

end

mutual

-- Whether a value can be written out: none of its integers has too many digits.
def isWritable : Data → Bool
  | int n => Decimal.digitCount n.natAbs ≤ Decimal.maxDigits
  | list items => itemsWritable items
  | mapping entries => entriesWritable entries
  | null | bool _ | float _ | text _ => true

def itemsWritable : List Data → Bool
  | [] => true
  | item :: rest => item.isWritable && itemsWritable rest

def entriesWritable : List (Data × Data) → Bool
  | [] => true
  | (key, value) :: rest => key.isWritable && value.isWritable && entriesWritable rest

end

-- A value on its own: a text stands for itself.
def plain : Data → String
  | text s => s
  | value => value.render

def text? : Data → Option String
  | text s => some s
  | _ => none

-- Whether two values are the same key. Numbers are compared by value, whatever their sort, and
-- the truth values count as one and zero; lists and mappings are no keys.
def sameKey : Data → Data → Bool
  | null, null => true
  | text s, text t => s = t
  | bool a, b => sameNumber (int a.toInt) b
  | int a, b => sameNumber (int a) b
  | float a, b => sameNumber (float a) b
  | _, _ => false
where
  sameNumber : Data → Data → Bool
    | int a, int b => a = b
    | int a, bool b => a = b.toInt
    | int a, float b => Decimal.integer? b = some a
    | float a, int b => Decimal.integer? a = some b
    | float a, bool b => Decimal.integer? a = some b.toInt
    | float a, float b => a == b
    | _, _ => false

-- Sets a key: a key that is there keeps its place and takes the new value.
def insert (key value : Data) : List (Data × Data) → List (Data × Data)
  | [] => [(key, value)]
  | (other, old) :: rest =>
    if sameKey other key then (other, value) :: rest else (other, old) :: insert key value rest

end Data

-- A number that is kept as it was given.
inductive Number where
  | int (value : Int)
  | float (value : Float)
  deriving DecidableEq, Inhabited

-- Why a text holds no value: its form is wrong, or reading it ended with an error of another kind.
inductive DataFault where
  | malformed (problem : String)
  | failed (message : String)
  deriving DecidableEq, Inhabited

-- A way to read the value that a text holds.
abbrev DataReader := List Char → Except DataFault Data

namespace Number

-- A truth value is no number.
def ofData? : Data → Option Number
  | .int n => some (int n)
  | .float x => some (float x)
  | _ => none

-- The nearest double; an integer beyond the finite doubles has none.
def toFloat? : Number → Option Float
  | int n => Decimal.ofInt? n
  | float x => some x

end Number

end Calculator
