import Calculator.Lexer
import Calculator.Parser.Rules

namespace Calculator

-- A lexer being read, with the diagnostics found so far, the oldest first. `abandoned` tells that
-- the last expression was given up because it nests too deeply.
structure Parser where
  lexer : Lexer
  diagnostics : List Diagnostic := []
  abandoned : Bool := false
  deriving DecidableEq, Inhabited

namespace Parser

-- The tokens that are left, to be read by the rules.
def state (parser : Parser) : State :=
  let drained := parser.lexer.drain
  { rest := drained.tokens
    eof := drained.eof
    reports := parser.diagnostics.reverse
    abandoned := parser.abandoned }

-- Moves the lexer on by the tokens that were taken, and to the one that was looked at.
def settle (parser : Parser) (before after : State) : Parser :=
  let lexer := parser.lexer.skip (before.rest.length - after.rest.length)
  { lexer := if after.ahead then lexer.peek.2 else lexer
    diagnostics := after.reports.reverse
    abandoned := after.abandoned }

def takeExpression (parser : Parser) : Expression × Parser :=
  let before := parser.state
  let taken := before.takeExpression
  (taken.1, parser.settle before taken.2)

def expectEnd (parser : Parser) : Parser :=
  let before := parser.state
  parser.settle before before.expectEnd

-- Reads expressions until the lexer is at its end, at most `fuel` of them.
def takeExpressions (parser : Parser) : Nat → List Expression × Parser
  | 0 => ([], parser)
  | fuel + 1 =>
    let ended := parser.lexer.isAtEnd
    let parser := { parser with lexer := ended.2 }
    if ended.1 then ([], parser)
    else
      let taken := parser.takeExpression
      let others := taken.2.takeExpressions fuel
      (taken.1 :: others.1, others.2)

-- Reads all expressions that are left. There are at most as many as tokens, and one more look
-- finds the end.
def takeAll (parser : Parser) : List Expression × Parser :=
  parser.takeExpressions (parser.lexer.drain.tokens.length + 1)

end Parser

-- An expression with all that is wrong with its text.
structure Reading where
  expression : Expression
  diagnostics : List Diagnostic
  deriving DecidableEq, Inhabited

namespace Reading

-- No expression that is read is higher, so with this limit none is refused for its height.
def maxHeight : Nat := 3 * Parser.maxNesting + 1

-- Reads exactly one expression from a list of tokens with an end.
def ofTokens (tokens : List Token) (eof : Token) : Reading :=
  let taken := Parser.State.takeExpression { rest := tokens, eof }
  ⟨taken.1, taken.2.expectEnd.reports.reverse⟩

def ofSource (source : Source) (file : String := unnamedInput) : Reading :=
  let drained := ({ source, file } : Lexer).drain
  ofTokens drained.tokens drained.eof

def ofString (text : String) : Reading := ofSource (.ofString text)

end Reading

end Calculator
