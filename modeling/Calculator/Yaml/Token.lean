import Calculator.Yaml.Scalar

namespace Calculator.Yaml

inductive Token where
  | documentStart
  | documentEnd
  | blockSequenceStart
  | blockMappingStart
  | blockEnd
  | flowSequenceStart
  | flowSequenceEnd
  | flowMappingStart
  | flowMappingEnd
  | blockEntry
  | flowEntry
  | key
  | value
  | anchor (name : String)
  | alias (name : String)
  | scalar (text : String) (isPlain : Bool)
  deriving DecidableEq, Inhabited

-- What may turn out to be a key, which is known only by the colon behind it. If it is `required`,
-- nothing else can stand in its place.
structure PossibleKey where
  place : Nat
  required : Bool
  index : Nat
  line : Nat
  column : Nat
  deriving DecidableEq, Inhabited

structure Lexer where
  reader : Reader
  tokens : List Token := []
  -- how many brackets are open
  depth : Nat := 0
  -- the column of the innermost block, and of those around it
  indent : Int := -1
  outer : List Int := []
  -- whether a key may begin here
  keyAllowed : Bool := true
  -- the latest possible key for each number of open brackets
  keys : List (Nat × PossibleKey) := []
  deriving DecidableEq, Inhabited

namespace Lexer

def inFlow (lexer : Lexer) : Bool := lexer.depth ≠ 0

def emit (token : Token) (lexer : Lexer) : Lexer :=
  { lexer with tokens := lexer.tokens ++ [token] }

-- Puts tokens before those from a place on.
def emitAt (place : Nat) (tokens : List Token) (lexer : Lexer) : Lexer :=
  { lexer with tokens := lexer.tokens.take place ++ tokens ++ lexer.tokens.drop place }

def skip (count : Nat) (lexer : Lexer) : Lexer :=
  { lexer with reader := lexer.reader.skip count }

def allowKey (allowed : Bool) (lexer : Lexer) : Lexer := { lexer with keyAllowed := allowed }

-- Ends the blocks that are indented more than a column.
def unwind (column : Int) (lexer : Lexer) : Lexer :=
  if lexer.inFlow then lexer else ended lexer lexer.outer
where
  ended (lexer : Lexer) : List Int → Lexer
    | [] => lexer
    | outer :: rest =>
      if column < lexer.indent then
        ended { lexer.emit .blockEnd with indent := outer, outer := rest } rest
      else lexer

-- Begins a block at a column that is further than that of the block around it.
def indentTo (column : Nat) (lexer : Lexer) : Bool × Lexer :=
  if lexer.indent < column then
    (true, { lexer with indent := column, outer := lexer.indent :: lexer.outer })
  else (false, lexer)

-- Forgets the possible keys that are too long by now.
def dropStale (lexer : Lexer) : Option Lexer :=
  let isStale := fun entry : Nat × PossibleKey =>
    entry.2.line ≠ lexer.reader.line || 1024 < lexer.reader.index - entry.2.index
  if lexer.keys.any fun entry => isStale entry && entry.2.required then none
  else some { lexer with keys := lexer.keys.filter (!isStale ·) }

-- Forgets the possible key among the open brackets.
def dropKey (lexer : Lexer) : Option Lexer :=
  match lexer.keys.lookup lexer.depth with
  | some possible =>
    if possible.required then none
    else some { lexer with keys := lexer.keys.filter (·.1 ≠ lexer.depth) }
  | none => some lexer

-- Remembers that what comes next may be a key.
def saveKey (lexer : Lexer) : Option Lexer :=
  if lexer.keyAllowed then do
    let reader := lexer.reader
    let possible : PossibleKey :=
      { place := lexer.tokens.length
        required := !lexer.inFlow && lexer.indent = reader.column
        index := reader.index
        line := reader.line
        column := reader.column }
    let lexer ← lexer.dropKey
    return { lexer with keys := (lexer.depth, possible) :: lexer.keys }
  else some lexer

-- Passes spaces, comments and line breaks. A new line may begin with a key.
def skipBlank : Nat → Lexer → Lexer
  | 0, lexer => lexer
  | fuel + 1, lexer =>
    let reader := lexer.reader.skipSpaces
    let reader := if reader.peek = '#' then reader.skipWhile (!endsLine ·) else reader
    match reader.takeBreak? with
    | some (_, after) =>
      skipBlank fuel
        { lexer with reader := after, keyAllowed := lexer.keyAllowed || !lexer.inFlow }
    | none => { lexer with reader }

-- Ends all blocks before a mark of a document.
def documentMark (token : Token) (lexer : Lexer) : Option Lexer := do
  let lexer ← (lexer.unwind (-1)).dropKey
  return ((lexer.allowKey false).skip 3).emit token

def openFlow (token : Token) (lexer : Lexer) : Option Lexer := do
  let lexer ← lexer.saveKey
  return (({ lexer with depth := lexer.depth + 1 }.allowKey true).skip 1).emit token

-- A bracket that closes nothing is refused.
def closeFlow (token : Token) (lexer : Lexer) : Option Lexer := do
  let lexer ← lexer.dropKey
  if lexer.depth = 0 then none
  return (({ lexer with depth := lexer.depth - 1 }.allowKey false).skip 1).emit token

def flowEntry (lexer : Lexer) : Option Lexer := do
  let lexer ← (lexer.allowKey true).dropKey
  return (lexer.skip 1).emit .flowEntry

-- Begins a block of a kind here, if a new one begins and nothing forbids it.
def beginBlock (token : Token) (lexer : Lexer) : Option Lexer :=
  if lexer.inFlow then some lexer
  else if !lexer.keyAllowed then none
  else
    let (isNew, lexer) := lexer.indentTo lexer.reader.column
    some (if isNew then lexer.emit token else lexer)

def blockEntry (lexer : Lexer) : Option Lexer := do
  let lexer ← lexer.beginBlock .blockSequenceStart
  let lexer ← (lexer.allowKey true).dropKey
  return (lexer.skip 1).emit .blockEntry

def explicitKey (lexer : Lexer) : Option Lexer := do
  let lexer ← lexer.beginBlock .blockMappingStart
  let lexer ← (lexer.allowKey (!lexer.inFlow)).dropKey
  return (lexer.skip 1).emit .key

-- The colon behind a key. If nothing before it may be a key, the key is empty.
def valueMark (lexer : Lexer) : Option Lexer :=
  match lexer.keys.lookup lexer.depth with
  | some possible =>
    let lexer := { lexer with keys := lexer.keys.filter (·.1 ≠ lexer.depth) }
    let (isNew, lexer) :=
      if lexer.inFlow then (false, lexer) else lexer.indentTo possible.column
    let lexer := lexer.emitAt possible.place
      (if isNew then [.blockMappingStart, .key] else [.key])
    some (((lexer.allowKey false).skip 1).emit .value)
  | none => do
    let lexer ← lexer.beginBlock .blockMappingStart
    let lexer ← (lexer.allowKey (!lexer.inFlow)).dropKey
    return (lexer.skip 1).emit .value

def isNameChar (c : Char) : Bool := c.isAlphanum || c = '-' || c = '_'

-- The name of an anchor, behind its mark.
def named (token : String → Token) (lexer : Lexer) : Option Lexer := do
  let lexer ← lexer.saveKey
  let reader := lexer.reader.next
  let name := reader.rest.takeWhile isNameChar
  let after := reader.skip name.length
  let ends := ['?', ':', ',', ']', '\x7d', '%', '@', '\x60']
  if name = [] || !(endsWord after.peek || ends.contains after.peek) then none
  return { lexer.allowKey false with reader := after }.emit (token (String.ofList name))

def blockScalar (folded : Bool) (lexer : Lexer) : Option Lexer := do
  let lexer ← (lexer.allowKey true).dropKey
  let (text, after) ← Scalar.block folded lexer.indent lexer.reader.next
  return { lexer with reader := after }.emit (.scalar (String.ofList text) false)

def quotedScalar (double : Bool) (lexer : Lexer) : Option Lexer := do
  let lexer ← lexer.saveKey
  let reader := lexer.reader.next
  let (text, after) ← Scalar.quoted double (reader.rest.length + 1) reader []
  return { lexer.allowKey false with reader := after }.emit (.scalar (String.ofList text) false)

def plainScalar (lexer : Lexer) : Option Lexer := do
  let lexer ← lexer.saveKey
  let reader := lexer.reader
  let (text, broken, after) :=
    Scalar.plain lexer.inFlow (lexer.indent + 1) reader.rest.length reader [] [] false
  return { lexer.allowKey broken with reader := after }.emit (.scalar (String.ofList text) true)

-- The characters that mean something at the start of a value.
def indicators : List Char :=
  ['-', '?', ':', ',', '[', ']', '\x7b', '\x7d', '#', '&', '*', '!', '|', '>', '\'', '"', '%',
   '@', '\x60']

-- Whether a plain scalar may begin here.
def startsPlain (lexer : Lexer) : Bool :=
  let c := lexer.reader.peek
  !(endsWord c || indicators.contains c) ||
    !endsWord (lexer.reader.peekAt 1) && (c = '-' || !lexer.inFlow && (c = '?' || c = ':'))

-- Reads one token, or yields nothing where none can begin. Directives and tags are refused.
def token? (lexer : Lexer) : Option Lexer :=
  let reader := lexer.reader
  let alone := endsWord (reader.peekAt 1)
  if reader.column = 0 && reader.peek = '%' then none
  else if reader.column = 0 && reader.startsWord '-' then lexer.documentMark .documentStart
  else if reader.column = 0 && reader.startsWord '.' then lexer.documentMark .documentEnd
  else
    match reader.peek with
    | '[' => lexer.openFlow .flowSequenceStart
    | '\x7b' => lexer.openFlow .flowMappingStart
    | ']' => lexer.closeFlow .flowSequenceEnd
    | '\x7d' => lexer.closeFlow .flowMappingEnd
    | ',' => lexer.flowEntry
    | '*' => lexer.named .alias
    | '&' => lexer.named .anchor
    | '!' => none
    | '\'' => lexer.quotedScalar false
    | '"' => lexer.quotedScalar true
    | c =>
      if c = '-' && alone then lexer.blockEntry
      else if c = '?' && (lexer.inFlow || alone) then lexer.explicitKey
      else if c = ':' && (lexer.inFlow || alone) then lexer.valueMark
      else if c = '|' && !lexer.inFlow then lexer.blockScalar false
      else if c = '>' && !lexer.inFlow then lexer.blockScalar true
      else if lexer.startsPlain then lexer.plainScalar
      else none

-- Reads tokens up to the end of the text. Every token takes a character at least.
def run : Nat → Lexer → Option (List Token)
  | 0, _ => none
  | fuel + 1, lexer => do
    let lexer ← (lexer.skipBlank (lexer.reader.rest.length + 1)).dropStale
    let lexer := lexer.unwind lexer.reader.column
    if lexer.reader.rest = [] then
      let lexer ← (lexer.unwind (-1)).dropKey
      return lexer.tokens
    else
      let lexer ← lexer.token?
      lexer.run fuel

end Lexer

-- The tokens of a text, if it can be cut into tokens.
def Token.ofText? (text : List Char) : Option (List Token) :=
  -- a byte order mark may stand in front
  let text := if text.head? = some '\ufeff' then text.tail else text
  if text.all isAllowed then Lexer.run (text.length + 1) { reader := { rest := text } } else none

end Calculator.Yaml
