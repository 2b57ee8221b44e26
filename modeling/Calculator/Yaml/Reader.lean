namespace Calculator.Yaml

-- A text holds no NUL, which therefore can stand for its end.
def endMark : Char := '\x00'

def isLineBreak (c : Char) : Bool :=
  c = '\n' || c = '\r' || c = '\x85' || c = '\u2028' || c = '\u2029'

def endsLine (c : Char) : Bool := isLineBreak c || c = endMark

-- What has to follow an indicator for it to be one.
def endsWord (c : Char) : Bool := endsLine c || c = ' ' || c = '\t'

-- The characters a text may be made of.
def isAllowed (c : Char) : Bool :=
  let n := c.toNat
  n = 0x09 || n = 0x0A || n = 0x0D || n = 0x85 || (0x20 ≤ n && n ≤ 0x7E) ||
    (0xA0 ≤ n && n ≤ 0xD7FF) || (0xE000 ≤ n && n ≤ 0xFFFD) || 0x10000 ≤ n

-- Lines and columns count from zero.
structure Reader where
  rest : List Char
  index : Nat := 0
  line : Nat := 0
  column : Nat := 0
  deriving DecidableEq, Inhabited

namespace Reader

def peek (reader : Reader) : Char := reader.rest.headD endMark

def peekAt (reader : Reader) (offset : Nat) : Char := reader.rest.getD offset endMark

-- Passes one character. A carriage return before a newline does not end the line by itself.
def next (reader : Reader) : Reader :=
  match reader.rest with
  | [] => reader
  | c :: rest =>
    if c ≠ '\r' ∧ isLineBreak c ∨ c = '\r' ∧ rest.head? ≠ some '\n' then
      ⟨rest, reader.index + 1, reader.line + 1, 0⟩
    else ⟨rest, reader.index + 1, reader.line, reader.column + 1⟩

def skip : Nat → Reader → Reader
  | 0, reader => reader
  | count + 1, reader => reader.next.skip count

-- Passes the longest run of characters of a class.
def skipWhile (p : Char → Bool) (reader : Reader) : Reader :=
  reader.skip (reader.rest.takeWhile p).length

def skipSpaces (reader : Reader) : Reader := reader.skipWhile (· = ' ')

-- Passes spaces up to a column.
def skipIndent (column : Nat) (reader : Reader) : Reader :=
  reader.skip (min (column - reader.column) (reader.rest.takeWhile (· = ' ')).length)

-- Passes one end of line, if it comes next. All of them are a newline but the two separators.
def takeBreak? (reader : Reader) : Option (Char × Reader) :=
  let c := reader.peek
  if c = '\r' ∧ reader.peekAt 1 = '\n' then some ('\n', reader.skip 2)
  else if c = '\u2028' ∨ c = '\u2029' then some (c, reader.next)
  else if isLineBreak c then some ('\n', reader.next)
  else none

-- Whether three characters and the end of a word come next.
def startsWord (mark : Char) (reader : Reader) : Bool :=
  reader.rest.take 3 = [mark, mark, mark] && endsWord (reader.peekAt 3)

-- Whether a line begins here that starts or ends a document.
def atDocumentMark (reader : Reader) : Bool := reader.startsWord '-' || reader.startsWord '.'

-- Passes the rest of a line that holds nothing more than a comment.
def skipComment? (reader : Reader) : Option Reader :=
  let reader := reader.skipSpaces
  let reader := if reader.peek = '#' then reader.skipWhile (!endsLine ·) else reader
  if endsLine reader.peek then
    some (match reader.takeBreak? with
      | some (_, after) => after
      | none => reader)
  else none

end Reader

end Calculator.Yaml
