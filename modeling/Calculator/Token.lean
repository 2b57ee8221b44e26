import Calculator.Kind
import Calculator.Span
import Calculator.Text.Quoted

namespace Calculator

-- A token and where it stands. `text` holds its characters if its kind does not determine them.
structure Token where
  kind : Kind
  span : Span
  text : Option String := none
  deriving DecidableEq, Inhabited

namespace Token

-- Stands for a missing token. No token of a text is on line 0.
def empty : Token := { kind := .empty, span := { line := 0, column := 0, offset := 0 } }

def isEmpty (token : Token) : Bool := token.kind = .empty

-- The token as it is spelled in the text; nothing for the end of the text.
def lexeme (token : Token) : String := token.text.getD token.kind.spelling

-- The token as messages show it.
def describe (token : Token) : String :=
  if token.kind = .eof then "end of input"
  else token.kind.name ++ " " ++ Text.quoted token.lexeme

end Token

end Calculator
