import Calculator.Proofs.Lexing.Spelling

namespace Calculator

namespace Cursor

theorem offset_past (cursor : Cursor) (c : Char) : (cursor.past c).offset = cursor.offset + 1 := by
  unfold past
  split <;> rfl

theorem offset_pastAll (cursor : Cursor) (chars : List Char) :
    (cursor.pastAll chars).offset = cursor.offset + chars.length := by
  induction chars generalizing cursor with
  | nil => rfl
  | cons c rest ih =>
    have hrest := ih (cursor.past c)
    rw [offset_past] at hrest
    simp only [pastAll, List.foldl_cons, List.length_cons] at hrest ⊢
    omega

theorem pastAll_of_line (cursor : Cursor) (chars : List Char) (h : ∀ c ∈ chars, c ≠ '\n') :
    cursor.pastAll chars =
      ⟨cursor.line, cursor.column + chars.length, cursor.offset + chars.length⟩ := by
  induction chars generalizing cursor with
  | nil => rfl
  | cons c rest ih =>
    have hc := h c List.mem_cons_self
    have hrest := ih (cursor.past c) fun d hd => h d (List.mem_cons_of_mem c hd)
    simp only [pastAll, List.foldl_cons, List.length_cons] at hrest ⊢
    rw [hrest]
    simp only [past, hc, ite_false, mk.injEq, true_and]
    omega

def eof (cursor : Cursor) (file : String) : Token :=
  { kind := .eof, span := cursor.span 0 file }

end Cursor

def Lexeme.token (lexeme : Lexeme) (start : Cursor) (file : String) : Token :=
  { kind := lexeme.kind
    span := start.span lexeme.chars.length file
    text := if lexeme.kind.varies then some (String.ofList lexeme.chars) else none }

namespace Spells

-- A kind whose tokens may differ has no spelling of its own, and any other has one.
theorem spelling_eq {kind : Kind} {chars : List Char} (h : Spells kind chars) :
    kind.varies = false → kind.spelling = String.ofList chars := by
  intro hvaries
  cases h with
  | keyword known =>
    have hsymbol : kind.spelling? = some (String.ofList chars) := by
      simp only [Kind.keywords, List.mem_cons, Prod.mk.injEq, List.not_mem_nil, or_false] at known
      rcases known with ⟨h, rfl⟩ | ⟨h, rfl⟩ | ⟨h, rfl⟩ | ⟨h, rfl⟩ | ⟨h, rfl⟩ <;> rw [h] <;> rfl
    simp [Kind.spelling, hsymbol]
  | operator operator spelled => simp [Kind.spelling, spelled]
  | _ => simp [Kind.varies] at hvaries

theorem lexeme_token {lexeme : Lexeme} (h : Spells lexeme.kind lexeme.chars) (start : Cursor)
    (file : String) : (lexeme.token start file).lexeme = String.ofList lexeme.chars := by
  cases hvaries : lexeme.kind.varies with
  | true => simp [Token.lexeme, Lexeme.token, hvaries]
  | false => simp [Token.lexeme, Lexeme.token, hvaries, h.spelling_eq hvaries]

theorem isSeparator_eq_false {kind : Kind} {chars : List Char} (h : Spells kind chars) :
    ∀ c ∈ chars, isSeparator c = false := by
  have hseparator : ∀ c, isSeparator c = true → c.isDigit = false ∧ continuesName c = false := by
    intro c hc
    simp only [isSeparator, Bool.or_eq_true, decide_eq_true_eq] at hc
    rcases hc with ((rfl | rfl) | rfl) | rfl <;> decide
  have hdigit : ∀ c, c.isDigit = true → isSeparator c = false := by
    intro c hc
    rw [Bool.eq_false_iff]
    intro hs
    simp [(hseparator c hs).1] at hc
  have hname : ∀ c, continuesName c = true → isSeparator c = false := by
    intro c hc
    rw [Bool.eq_false_iff]
    intro hs
    simp [(hseparator c hs).2] at hc
  intro c hc
  cases h with
  | number nonempty digit => exact hdigit c (digit c hc)
  | keyword known =>
    obtain ⟨_, first, rest, rfl, starts, continues⟩ := Kind.word_of_mem_keywords known
    rcases List.mem_cons.mp hc with rfl | hc
    · exact hname c (continuesName_of_startsName starts)
    · exact hname c (continues c hc)
  | identifier starts continues unknown =>
    rcases List.mem_cons.mp hc with rfl | hc
    · exact hname c (continuesName_of_startsName starts)
    · exact hname c (continues c hc)
  | operator operator spelled => exact (Kind.chars_of_spelling operator spelled).2.2 c hc
  | invalid noDigit noName noSeparator noOperator =>
    rw [List.mem_singleton.mp hc]
    exact noSeparator

theorem ne_newline {kind : Kind} {chars : List Char} (h : Spells kind chars) :
    ∀ c ∈ chars, c ≠ '\n' := by
  rintro c hc rfl
  exact absurd (h.isSeparator_eq_false _ hc) (by decide)

end Spells

-- What one token takes of the characters ahead, from a cursor to a cursor.
inductive Cuts (file : String) : Cursor → List Char → Token → Cursor → List Char → Prop where
  | eof {start : Cursor} {blanks : List Char} (separators : ∀ c ∈ blanks, isSeparator c = true) :
      Cuts file start blanks ((start.pastAll blanks).eof file) (start.pastAll blanks) []
  | token {start : Cursor} {blanks chars rest : List Char} {lexeme : Lexeme}
      (separators : ∀ c ∈ blanks, isSeparator c = true) (munch : Munch lexeme chars rest) :
      Cuts file start (blanks ++ chars) (lexeme.token (start.pastAll blanks) file)
        ((start.pastAll blanks).pastAll lexeme.chars) rest

-- The tokens of the characters ahead, with the end of the text behind them.
inductive Tiles (file : String) : Cursor → List Char → List Token → Token → Prop where
  | eof {start : Cursor} {blanks : List Char} (separators : ∀ c ∈ blanks, isSeparator c = true) :
      Tiles file start blanks [] ((start.pastAll blanks).eof file)
  | token {start : Cursor} {blanks chars rest : List Char} {lexeme : Lexeme} {tokens : List Token}
      {eof : Token} (separators : ∀ c ∈ blanks, isSeparator c = true)
      (munch : Munch lexeme chars rest)
      (tiles : Tiles file ((start.pastAll blanks).pastAll lexeme.chars) rest tokens eof) :
      Tiles file start (blanks ++ chars) (lexeme.token (start.pastAll blanks) file :: tokens) eof

theorem Tiles.of_cuts_end {file : String} {start after : Cursor} {chars rest : List Char}
    {token : Token} (cut : Cuts file start chars token after rest) (h : token.kind = .eof) :
    Tiles file start chars [] token := by
  cases cut with
  | eof separators => exact .eof separators
  | token separators munch => exact absurd h munch.spells.kind_ne.1

theorem Tiles.of_cuts_next {file : String} {start after : Cursor} {chars rest : List Char}
    {token eof : Token} {tokens : List Token} (cut : Cuts file start chars token after rest)
    (h : token.kind ≠ .eof) (tiles : Tiles file after rest tokens eof) :
    Tiles file start chars (token :: tokens) eof := by
  cases cut with
  | eof separators => exact absurd rfl h
  | token separators munch => exact .token separators munch tiles

namespace Lexer

theorem read_of_none {lexer : Lexer} (h : lexer.lookahead = none) : lexer.read = lexer.scan := by
  simp [read, h]

theorem drain_of_end {lexer : Lexer} (h : lexer.read.1.kind = .eof) :
    lexer.drain = ⟨[], lexer.read.1, lexer.read.2⟩ := by
  rw [drain]
  simp only [h, dite_true]

theorem drain_of_next {lexer : Lexer} (h : lexer.read.1.kind ≠ .eof) :
    lexer.drain = ⟨lexer.read.1 :: lexer.read.2.drain.tokens, lexer.read.2.drain.eof,
      lexer.read.2.drain.lexer⟩ := by
  rw [drain]
  simp only [h, dite_false]

theorem file_scan (lexer : Lexer) : lexer.scan.2.file = lexer.file := by
  unfold scan
  dsimp only
  split <;> rfl

theorem scan_cuts (lexer : Lexer) :
    Cuts lexer.file lexer.cursor lexer.source.visible lexer.scan.1 lexer.scan.2.cursor
      lexer.scan.2.source.visible := by
  have hsplit : lexer.source.visible =
      (lexer.source.takeWhile isSeparator).1 ++ (lexer.source.takeWhile isSeparator).2.visible := by
    rw [Source.takeWhile_fst, Source.visible_takeWhile, List.takeWhile_append_dropWhile]
  have hblanks : ∀ c ∈ (lexer.source.takeWhile isSeparator).1, isSeparator c = true := by
    intro c hc
    rw [Source.takeWhile_fst] at hc
    exact mem_takeWhile hc
  rw [hsplit]
  unfold scan
  dsimp only
  split
  · rename_i hend
    rw [Source.peek_fst, List.head?_eq_none_iff] at hend
    rw [Source.visible_peek, hend, List.append_nil]
    exact .eof hblanks
  · rename_i c hc
    have hseparator : isSeparator c = false := by
      rw [Source.peek_fst, Source.visible_takeWhile] at hc
      exact head?_dropWhile_eq_false hc
    exact .token hblanks (Source.takeLexeme_munch hc hseparator)

theorem drain_tiles (lexer : Lexer) (h : lexer.lookahead = none) :
    Tiles lexer.file lexer.cursor lexer.source.visible lexer.drain.tokens lexer.drain.eof := by
  have hread := read_of_none h
  have hcuts := lexer.scan_cuts
  by_cases hend : lexer.read.1.kind = .eof
  · rw [drain_of_end hend, hread]
    exact .of_cuts_end hcuts (hread ▸ hend)
  · have hrest := drain_tiles lexer.scan.2 (lexer.lookahead_scan.trans h)
    rw [file_scan] at hrest
    rw [drain_of_next hend, hread]
    exact .of_cuts_next hcuts (hread ▸ hend) hrest
termination_by lexer.size
decreasing_by exact hread ▸ lexer.size_read_lt hend

end Lexer

end Calculator
