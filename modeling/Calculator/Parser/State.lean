import Calculator.Expression
import Calculator.Parser.Message

namespace Calculator.Parser

structure State where
  -- the tokens not yet taken, and the end behind them
  rest : List Token
  eof : Token
  -- whether the next token was looked at since the last one was taken
  ahead : Bool := false
  -- the latest report comes first
  reports : List Diagnostic := []
  -- set once reading was given up; from then on nothing is reported about misplaced tokens
  abandoned : Bool := false
  deriving DecidableEq, Inhabited

namespace State

def next (state : State) : Token := state.rest.headD state.eof

def look (state : State) : State := { state with ahead := true }

def advance (state : State) : State := { state with rest := state.rest.tail, ahead := false }

def report (diagnostic : Diagnostic) (state : State) : State :=
  { state with reports := diagnostic :: state.reports }

def complain (message : String) (token : Token) (state : State) : State :=
  if state.abandoned then state else state.report (misplaced message token)

-- Reports and passes the invalid characters that come next.
def skipInvalid (state : State) : State :=
  let isInvalid := fun token : Token => token.kind = .invalid
  { state with
    rest := state.rest.dropWhile isInvalid
    ahead := true
    reports := ((state.rest.takeWhile isInvalid).map invalidCharacter).reverse ++ state.reports }

-- Takes a token of a kind. If the next token that is a valid one is of another kind, it stays
-- and the wanted one is reported missing.
def expect (kind : Kind) (what : String) (state : State) : Token × State :=
  let state := state.skipInvalid
  let token := state.next
  if token.kind = kind then (token, state.advance)
  else (.empty, state.complain (Message.expected what token) token)

-- Gives up: passes all tokens that are left.
def abandon (state : State) : State := { state with rest := [], ahead := true, abandoned := true }

end State

end Calculator.Parser
