import Calculator.Yaml.Reader

namespace Calculator.Yaml.Scalar

-- Passes line breaks and the spaces between them, and collects the breaks. Yields nothing if a
-- mark of a document stands on one of the lines.
def plainBreaks : Nat → Reader → List Char → Option (List Char) × Reader
  | 0, reader, breaks => (some breaks.reverse, reader)
  | fuel + 1, reader, breaks =>
    if reader.peek = ' ' then plainBreaks fuel reader.next breaks
    else
      match reader.takeBreak? with
      | none => (some breaks.reverse, reader)
      | some (c, after) =>
        if after.atDocumentMark then (none, after) else plainBreaks fuel after (c :: breaks)

-- One line break and further ones as text: one is a space, and of more the first is dropped.
def fold (first : Char) (breaks : List Char) : List Char :=
  if first ≠ '\n' then first :: breaks
  else if breaks = [] then [' ']
  else breaks

-- The blanks behind a word of a plain scalar, whether a line ended there, and what follows.
def plainBlanks (reader : Reader) : List Char × Bool × Reader :=
  let blanks := reader.rest.takeWhile (· = ' ')
  let reader := reader.skipSpaces
  match reader.takeBreak? with
  | none => (blanks, false, reader)
  | some (first, after) =>
    if after.atDocumentMark then ([], true, after)
    else
      match plainBreaks after.rest.length after [] with
      | (none, after) => ([], true, after)
      | (some breaks, after) => (fold first breaks, true, after)

def isFlowMark (c : Char) : Bool := [',', '[', ']', '\x7b', '\x7d'].contains c

-- The part of a plain scalar up to the next blank. A colon ends it where a key may end.
def plainWord (inFlow : Bool) : List Char → List Char
  | [] => []
  | c :: rest =>
    let next := rest.headD endMark
    let endsKey := c = ':' && (endsWord next || inFlow && isFlowMark next)
    if endsWord c || endsKey || inFlow && (isFlowMark c || c = '?') then []
    else c :: plainWord inFlow rest

-- A plain scalar: its text, whether it ended with a line break, and what follows. Lines that
-- continue it are indented by `indent` at least. `blanks` stand between `text` and the next word.
def plain (inFlow : Bool) (indent : Int) :
    Nat → Reader → List Char → List Char → Bool → List Char × Bool × Reader
  | 0, reader, text, _, broken => (text, broken, reader)
  | fuel + 1, reader, text, blanks, broken =>
    let word := if reader.peek = '#' then [] else plainWord inFlow reader.rest
    if word = [] then (text, broken, reader)
    else
      let text := text ++ blanks ++ word
      let (blanks, broken, after) := plainBlanks (reader.skip word.length)
      if blanks = [] || after.peek = '#' || !inFlow && (after.column : Int) < indent then
        (text, broken, after)
      else plain inFlow indent fuel after text blanks broken

-- Passes line breaks in quotes with the blanks around them, and collects the breaks.
def quotedBreaks : Nat → Reader → List Char → Option (List Char × Reader)
  | 0, reader, breaks => some (breaks.reverse, reader)
  | fuel + 1, reader, breaks =>
    if reader.atDocumentMark then none
    else
      let reader := reader.skipWhile fun c => c = ' ' || c = '\t'
      match reader.takeBreak? with
      | none => some (breaks.reverse, reader)
      | some (c, after) => quotedBreaks fuel after (c :: breaks)

-- The character that a letter behind a backslash stands for.
def named? : Char → Option Char
  | '0' => some '\x00'
  | 'a' => some '\x07'
  | 'b' => some '\x08'
  | 't' | '\t' => some '\t'
  | 'n' => some '\n'
  | 'v' => some '\x0b'
  | 'f' => some '\x0c'
  | 'r' => some '\r'
  | 'e' => some '\x1b'
  | ' ' => some ' '
  | '"' => some '"'
  | '\\' => some '\\'
  | '/' => some '/'
  | 'N' => some '\x85'
  | '_' => some '\xa0'
  | 'L' => some '\u2028'
  | 'P' => some '\u2029'
  | _ => none

-- How many hexadecimal digits follow a letter behind a backslash.
def codeLength? : Char → Option Nat
  | 'x' => some 2
  | 'u' => some 4
  | 'U' => some 8
  | _ => none

def digitOf? (c : Char) : Option Nat :=
  if c.isDigit then some (c.toNat - '0'.toNat)
  else if 'a' ≤ c ∧ c ≤ 'f' then some (c.toNat - 'a'.toNat + 10)
  else if 'A' ≤ c ∧ c ≤ 'F' then some (c.toNat - 'A'.toNat + 10)
  else none

-- The number that digits denote in a base.
def numeral? (base : Nat) (digits : List Char) : Option Nat :=
  digits.foldlM (fun value c => (digitOf? c).bind fun digit =>
    if digit < base then some (base * value + digit) else none) 0

-- Reads what follows a backslash: the text it stands for and what comes behind.
def escaped? (reader : Reader) : Option (List Char × Reader) :=
  let c := reader.peek
  match named? c, codeLength? c, reader.takeBreak? with
  | some text, _, _ => some ([text], reader.next)
  | none, some length, _ => do
    let digits := reader.next.rest.take length
    let code ← numeral? 16 digits
    if digits.length = length ∧ code.isValidChar then
      some ([Char.ofNat code], reader.skip (length + 1))
    else none
  | none, none, some (_, after) => quotedBreaks after.rest.length after []
  | none, none, none => none

-- A scalar in single or double quotes, from behind the first quote.
def quoted (double : Bool) : Nat → Reader → List Char → Option (List Char × Reader)
  | 0, _, _ => none
  | fuel + 1, reader, text =>
    let c := reader.peek
    if double && c = '"' then some (text, reader.next)
    else if !double && c = '\'' then
      if reader.peekAt 1 = '\'' then quoted double fuel (reader.skip 2) (text ++ ['\''])
      else some (text, reader.next)
    else if double && c = '\\' then do
      let (more, after) ← escaped? reader.next
      quoted double fuel after (text ++ more)
    else if endsWord c then
      let isBlank := fun c : Char => c = ' ' || c = '\t'
      let blanks := reader.rest.takeWhile isBlank
      let after := reader.skipWhile isBlank
      if after.peek = endMark then none
      else
        match after.takeBreak? with
        | none => quoted double fuel after (text ++ blanks)
        | some (first, after) => do
          let (breaks, after) ← quotedBreaks after.rest.length after []
          quoted double fuel after (text ++ fold first breaks)
    else quoted double fuel reader.next (text ++ [c])

-- What becomes of the line breaks at the end of a block.
inductive Chomping where
  | strip
  | clip
  | keep
  deriving DecidableEq

def chomping? : Char → Option Chomping
  | '-' => some .strip
  | '+' => some .keep
  | _ => none

-- The header of a block: its chomping and the indentation of its lines, in either order.
def blockHeader (reader : Reader) : Chomping × Option Nat × Reader :=
  let digit := fun reader : Reader =>
    if reader.peek.isDigit then (digitOf? reader.peek, reader.next) else (none, reader)
  match chomping? reader.peek with
  | some chomping =>
    let (indent, after) := digit reader.next
    (chomping, indent, after)
  | none =>
    let (indent, after) := digit reader
    match chomping? after.peek, indent with
    | some chomping, some _ => (chomping, indent, after.next)
    | _, _ => (.clip, indent, after)

-- Passes empty lines and collects their breaks. With a column given, spaces are passed up to it
-- only; else all are, and the furthest column reached is kept.
def blockBreaks (column : Option Nat) :
    Nat → Reader → List Char → Nat → List Char × Nat × Reader
  | 0, reader, breaks, furthest => (breaks.reverse, furthest, reader)
  | fuel + 1, reader, breaks, furthest =>
    let reader := match column with
      | some column => reader.skipIndent column
      | none => reader.skipSpaces
    let furthest := max furthest reader.column
    match reader.takeBreak? with
    | none => (breaks.reverse, furthest, reader)
    | some (c, after) => blockBreaks column fuel after (c :: breaks) furthest

-- The lines of a block, from the first one with text. Yields the text, the last line break and
-- the breaks behind it.
def blockLines (folded : Bool) (indent : Nat) :
    Nat → Reader → List Char → List Char → List Char × List Char × List Char × Reader
  | 0, reader, text, breaks => (text, [], breaks, reader)
  | fuel + 1, reader, text, breaks =>
    let leading := reader.peek
    let line := reader.rest.takeWhile (!endsLine ·)
    let text := text ++ breaks ++ line
    let reader := reader.skip line.length
    let (lineBreak, reader) := match reader.takeBreak? with
      | some (c, after) => ([c], after)
      | none => ([], reader)
    let (breaks, _, reader) := blockBreaks (some indent) reader.rest.length reader [] 0
    if reader.column = indent && reader.peek ≠ endMark then
      let isText := fun c : Char => c ≠ ' ' && c ≠ '\t'
      let joined :=
        if folded && lineBreak = ['\n'] && isText leading && isText reader.peek then
          if breaks = [] then [' '] else []
        else lineBreak
      blockLines folded indent fuel reader (text ++ joined) breaks
    else (text, lineBreak, breaks, reader)

-- A block scalar, from behind its mark. `indent` is the indentation of the block around it.
def block (folded : Bool) (indent : Int) (reader : Reader) : Option (List Char × Reader) := do
  let (chomping, increment, reader) := blockHeader reader
  if increment = some 0 then none
  let reader ← if endsLine reader.peek || reader.peek = ' ' then reader.skipComment? else none
  let least := max 1 (indent + 1).toNat
  let column := increment.map fun increment => least + increment - 1
  let (breaks, furthest, reader) := blockBreaks column reader.rest.length reader [] 0
  let column := column.getD (max least furthest)
  let (text, lineBreak, breaks, reader) :=
    if reader.column = column && reader.peek ≠ endMark then
      blockLines folded column (reader.rest.length + 1) reader [] breaks
    else ([], [], breaks, reader)
  let ending := match chomping with
    | .strip => []
    | .clip => lineBreak
    | .keep => lineBreak ++ breaks
  return (text ++ ending, reader)

end Calculator.Yaml.Scalar
