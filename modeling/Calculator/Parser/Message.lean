import Calculator.Diagnostic
import Calculator.Token

namespace Calculator.Parser

-- The deepest nesting of expressions: the contents of parentheses, initializers, conditions and
-- branches are each one level deeper than the expression around them.
def maxNesting : Nat := 64

namespace Message

def invalidCharacter (token : Token) : String :=
  "Invalid character " ++ Text.quoted token.lexeme

def expected (what : String) (got : Token) : String :=
  "Expected " ++ what ++ ", got " ++ got.describe

def expectedExpression (got : Token) : String := expected "expression" got

def expectedFraction (got : Token) : String := expected "digits after '.'" got

def leftOver (token : Token) : String :=
  "Unexpected " ++ token.describe ++ " after expression"

def tooDeep : String :=
  "Expression is nested more than " ++ toString maxNesting ++ " levels deep"

def tooLong (token : Token) : String :=
  "Integer literal too long (" ++ toString token.span.length ++ " digits)"

def spacedReal : String := "Whitespace is not allowed inside a real number literal"

end Message

-- The diagnostic of a character that starts no token.
def invalidCharacter (token : Token) : Diagnostic :=
  ⟨.lexical, Message.invalidCharacter token, some token.span⟩

def misplaced (message : String) (token : Token) : Diagnostic :=
  ⟨.syntactic, message, some token.span⟩

-- The diagnostics of the tokens behind an expression: every invalid character, and the first
-- other token unless something was `reported` already.
def leftOver (reported : Bool) : List Token → List Diagnostic
  | [] => []
  | token :: rest =>
    if token.kind = .invalid then invalidCharacter token :: leftOver reported rest
    else if reported then leftOver true rest
    else misplaced (Message.leftOver token) token :: leftOver true rest

end Calculator.Parser
