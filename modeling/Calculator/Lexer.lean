import Calculator.Source
import Calculator.Token
import Calculator.Text.Letter

namespace Calculator

-- A position in the text: line and column count from 1, the offset from 0.
structure Cursor where
  line : Nat := 1
  column : Nat := 1
  offset : Nat := 0
  deriving DecidableEq, Inhabited

namespace Cursor

def past (cursor : Cursor) (c : Char) : Cursor :=
  if c = '\n' then ⟨cursor.line + 1, 1, cursor.offset + 1⟩
  else ⟨cursor.line, cursor.column + 1, cursor.offset + 1⟩

def pastAll (cursor : Cursor) (chars : List Char) : Cursor := chars.foldl past cursor

def span (cursor : Cursor) (length : Nat) (file : String) : Span :=
  { line := cursor.line, column := cursor.column, offset := cursor.offset, length, file }

end Cursor

-- The characters that separate tokens.
def isSeparator (c : Char) : Bool := c = ' ' || c = '\t' || c = '\r' || c = '\n'

def startsName (c : Char) : Bool := Text.isLetter c || c = '_'

def continuesName (c : Char) : Bool := Text.isAlphanumeric c || c = '_'

-- The kinds of a character that an equals sign may follow: alone, and with the sign.
def withEquals? : Char → Option (Kind × Kind)
  | '=' => some (.equals, .equalEqual)
  | '<' => some (.less, .lessEqual)
  | '>' => some (.greater, .greaterEqual)
  | _ => none

-- The kind of a character that is a token whatever follows it.
def Kind.ofSingle : Char → Kind
  | '+' => .plus
  | '-' => .minus
  | '*' => .star
  | '/' => .slash
  | '(' => .leftParen
  | ')' => .rightParen
  | '.' => .period
  | _ => .invalid

-- The characters of one token and what they are.
structure Lexeme where
  kind : Kind
  chars : List Char
  deriving DecidableEq, Inhabited

-- Takes the token that begins with `c`, the next character of the source.
def Source.takeLexeme (c : Char) (source : Source) : Lexeme × Source :=
  if c.isDigit then
    let run := source.takeWhile Char.isDigit
    (⟨.number, run.1⟩, run.2)
  else if startsName c then
    let run := source.takeWhile continuesName
    (⟨.ofWord (String.ofList run.1), run.1⟩, run.2)
  else
    let after := source.read.2
    match withEquals? c with
    | some (alone, doubled) =>
      if after.peek.1 = some '=' then (⟨doubled, [c, '=']⟩, after.read.2)
      else (⟨alone, [c]⟩, after.peek.2)
    | none => (⟨.ofSingle c, [c]⟩, after)

-- A token takes at least the character it begins with.
theorem Source.length_takeLexeme_lt {source : Source} {c : Char} (h : source.peek.1 = some c) :
    (source.takeLexeme c).2.visible.length < source.visible.length := by
  have hread := congrArg List.length (visible_read_of_peek h)
  have hrun : ∀ p : Char → Bool, p c = true →
      (source.takeWhile p).2.visible.length < source.visible.length := by
    intro p hp
    have hdrop := (List.dropWhile_suffix (l := source.read.2.visible) p).length_le
    rw [visible_takeWhile, visible_read_of_peek h, List.dropWhile_cons_of_pos hp]
    simp only [List.length_cons]
    omega
  simp only [List.length_cons] at hread
  unfold takeLexeme
  split
  · exact hrun _ ‹_›
  · split
    · rename_i hname
      refine hrun _ ?_
      rcases Bool.or_eq_true _ _ ▸ hname with hletter | hunderscore
      · simp [continuesName, Text.isAlphanumeric_of_isLetter hletter]
      · simp [continuesName, hunderscore]
    · dsimp only
      split
      · split
        · rename_i heq
          have := congrArg List.length (visible_read_of_peek heq)
          simp only [List.length_cons] at this ⊢
          omega
        · rw [visible_peek]; omega
      · simp only; omega

-- A source being cut. `cursor` is the position after the last token that was cut, whether it
-- was handed out or waits as `lookahead`.
structure Lexer where
  source : Source
  file : String := unnamedInput
  cursor : Cursor := {}
  lookahead : Option Token := none
  deriving DecidableEq, Inhabited

namespace Lexer

def scan (lexer : Lexer) : Token × Lexer :=
  let blanks := lexer.source.takeWhile isSeparator
  let start := lexer.cursor.pastAll blanks.1
  match blanks.2.peek.1 with
  | none =>
    ({ kind := .eof, span := start.span 0 lexer.file },
     { lexer with source := blanks.2.peek.2, cursor := start })
  | some c =>
    let lexeme := blanks.2.takeLexeme c
    ({ kind := lexeme.1.kind
       span := start.span lexeme.1.chars.length lexer.file
       text := if lexeme.1.kind.varies then some (String.ofList lexeme.1.chars) else none },
     { lexer with source := lexeme.2, cursor := start.pastAll lexeme.1.chars })

-- The next token, which stays the next one.
def peek (lexer : Lexer) : Token × Lexer :=
  match lexer.lookahead with
  | some token => (token, lexer)
  | none =>
    let cut := lexer.scan
    (cut.1, { cut.2 with lookahead := some cut.1 })

-- Takes the next token. The end of the text can be taken any number of times.
def read (lexer : Lexer) : Token × Lexer :=
  match lexer.lookahead with
  | some token => (token, { lexer with lookahead := none })
  | none => lexer.scan

def isAtEnd (lexer : Lexer) : Bool × Lexer :=
  let next := lexer.peek
  (next.1.kind = .eof, next.2)

def append (added : List Char) (lexer : Lexer) : Lexer :=
  { lexer with source := lexer.source.append added }

-- What is left to hand out: characters to cut, and a token that waits.
def size (lexer : Lexer) : Nat :=
  lexer.source.visible.length + if lexer.lookahead.isSome then 1 else 0

theorem length_scan_lt (lexer : Lexer) (h : lexer.scan.1.kind ≠ .eof) :
    lexer.scan.2.source.visible.length < lexer.source.visible.length := by
  have hblank := lexer.source.length_takeWhile_le isSeparator
  unfold scan at h ⊢
  cases hc : (lexer.source.takeWhile isSeparator).2.peek.1 with
  | none => simp [hc] at h
  | some c =>
    have hlexeme := Source.length_takeLexeme_lt hc
    simp only [hc]
    omega

theorem lookahead_scan (lexer : Lexer) : lexer.scan.2.lookahead = lexer.lookahead := by
  unfold scan
  dsimp only
  split <;> rfl

theorem size_read_lt (lexer : Lexer) (h : lexer.read.1.kind ≠ .eof) :
    lexer.read.2.size < lexer.size := by
  unfold read at h ⊢
  cases hl : lexer.lookahead with
  | some token => simp [size, hl]
  | none =>
    simp only [hl] at h ⊢
    simp only [size, lookahead_scan, hl]
    have := lexer.length_scan_lt h
    simpa using this

-- All tokens that are left: those before the end, the end, and the lexer after it.
structure Drained where
  tokens : List Token
  eof : Token
  lexer : Lexer

def drain (lexer : Lexer) : Drained :=
  let next := lexer.read
  if _h : next.1.kind = .eof then ⟨[], next.1, next.2⟩
  else
    let rest := next.2.drain
    ⟨next.1 :: rest.tokens, rest.eof, rest.lexer⟩
termination_by lexer.size
decreasing_by exact lexer.size_read_lt _h

-- Takes every token up to the end of the text, the end included.
def tokenize (lexer : Lexer) : List Token × Lexer :=
  let drained := lexer.drain
  (drained.tokens ++ [drained.eof], drained.lexer)

def skip (count : Nat) (lexer : Lexer) : Lexer :=
  match count with
  | 0 => lexer
  | rest + 1 => lexer.read.2.skip rest

end Lexer

def tokenize (text : String) (file : String := unnamedInput) : List Token :=
  ({ source := .ofString text, file } : Lexer).tokenize.1

end Calculator
