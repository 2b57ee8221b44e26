namespace Calculator

-- What a token is. `invalid` is a character that starts no token, `eof` the end of the text and
-- `empty` stands where a token is missing; no text ever yields `empty`.
inductive Kind where
  | number
  | period
  | identifier
  | letWord
  | ifWord
  | thenWord
  | elseWord
  | endWord
  | plus
  | minus
  | star
  | slash
  | less
  | lessEqual
  | greater
  | greaterEqual
  | equalEqual
  | leftParen
  | rightParen
  | equals
  | invalid
  | eof
  | empty
  deriving DecidableEq, Inhabited

namespace Kind

def all : List Kind :=
  [number, period, identifier, letWord, ifWord, thenWord, elseWord, endWord, plus, minus, star,
   slash, less, lessEqual, greater, greaterEqual, equalEqual, leftParen, rightParen, equals,
   invalid, eof, empty]

def name : Kind → String
  | number => "NUMBER"
  | period => "PERIOD"
  | identifier => "IDENTIFIER"
  | letWord => "LET"
  | ifWord => "IF"
  | thenWord => "THEN"
  | elseWord => "ELSE"
  | endWord => "END"
  | plus => "PLUS"
  | minus => "MINUS"
  | star => "STAR"
  | slash => "SLASH"
  | less => "LESS"
  | lessEqual => "LESS_EQUAL"
  | greater => "GREATER"
  | greaterEqual => "GREATER_EQUAL"
  | equalEqual => "EQUAL_EQUAL"
  | leftParen => "LPAREN"
  | rightParen => "RPAREN"
  | equals => "EQUALS"
  | invalid => "INVALID"
  | eof => "EOF"
  | empty => "EMPTY"

-- The one spelling of a kind that has only one.
def spelling? : Kind → Option String
  | period => some "."
  | plus => some "+"
  | minus => some "-"
  | star => some "*"
  | slash => some "/"
  | less => some "<"
  | lessEqual => some "<="
  | greater => some ">"
  | greaterEqual => some ">="
  | equalEqual => some "=="
  | leftParen => some "("
  | rightParen => some ")"
  | equals => some "="
  | letWord => some "let"
  | ifWord => some "if"
  | thenWord => some "then"
  | elseWord => some "else"
  | endWord => some "end"
  | number | identifier | invalid | eof | empty => none

def spelling (kind : Kind) : String := kind.spelling?.getD ""

-- The words that are no identifiers.
def keywords : List (String × Kind) :=
  [("let", letWord), ("if", ifWord), ("then", thenWord), ("else", elseWord), ("end", endWord)]

-- The kinds with one spelling: first the operators and delimiters, then the keywords.
def symbols : List (Kind × String) :=
  [period, plus, minus, star, slash, less, lessEqual, greater, greaterEqual, equalEqual,
   leftParen, rightParen, equals, letWord, ifWord, thenWord, elseWord, endWord].map
    fun kind => (kind, kind.spelling)

theorem mem_symbols_iff (kind : Kind) (text : String) :
    (kind, text) ∈ symbols ↔ kind.spelling? = some text := by
  cases kind <;> simp [symbols, spelling, spelling?, eq_comm]

-- What a whole word is: a keyword or an identifier.
def ofWord (word : String) : Kind := (keywords.lookup word).getD identifier

def isComparison : Kind → Bool
  | less | lessEqual | greater | greaterEqual | equalEqual => true
  | _ => false

def isAdditive : Kind → Bool
  | plus | minus => true
  | _ => false

def isMultiplicative : Kind → Bool
  | star | slash => true
  | _ => false

def isBinary (kind : Kind) : Bool :=
  kind.isComparison || kind.isAdditive || kind.isMultiplicative

-- Tokens that close an enclosing construct, or the text itself.
def closes : Kind → Bool
  | rightParen | thenWord | elseWord | endWord | eof => true
  | _ => false

-- Kinds whose tokens differ in their characters.
def varies : Kind → Bool
  | number | identifier | invalid => true
  | _ => false

end Kind

end Calculator
