import Calculator.Proofs.Lexing.Tiling

namespace Calculator

namespace Span

-- The characters of a text that a span covers.
def cut (span : Span) (text : List Char) : List Char :=
  (text.drop span.start.toNat).take span.length.toNat

def Covers (span : Span) (i : Nat) : Prop := span.start ≤ i ∧ (i : Int) < span.stop

end Span

-- A token that stands where its span says. Exactly one kind is spelled by its characters.
structure Token.Fits (token : Token) (text : List Char) (file : String) : Prop where
  nonempty : token.span.start < token.span.stop
  inside : 0 ≤ token.span.start ∧ token.span.stop ≤ text.length
  cut : token.span.cut text = token.lexeme.toList
  kind : ∀ kind, Spells kind token.lexeme.toList ↔ kind = token.kind
  longest : ∀ c, text[token.span.stop.toNat]? = some c → token.kind.continuedBy c = false
  text : token.text.isSome = token.kind.varies
  file : token.span.file = file

theorem Spells.isDigit {chars : List Char} (h : Spells .number chars) :
    ∀ c ∈ chars, c.isDigit = true := by
  cases h with
  | number nonempty digit => exact digit
  | keyword known => simp [Kind.keywords] at known
  | operator operator spelled => simp [Kind.isOperator] at operator

theorem Token.Fits.exists_text {token : Token} {text : List Char} {file : String}
    (h : token.Fits text file) (hvaries : token.kind.varies = true) :
    ∃ written, token.text = some written ∧ Spells token.kind written.toList := by
  obtain ⟨written, hwritten⟩ := Option.isSome_iff_exists.mp (h.text.trans hvaries)
  have hlexeme : token.lexeme = written := by simp [Token.lexeme, hwritten]
  have hspells := (h.kind token.kind).mpr rfl
  rw [hlexeme] at hspells
  exact ⟨written, hwritten, hspells⟩

-- A text that tokens and separators make up.
structure Partition (text : List Char) (file : String) (tokens : List Token) : Prop where
  fits : ∀ token ∈ tokens, token.Fits text file
  increasing : tokens.Pairwise fun first second => first.span.stop ≤ second.span.start
  separators : ∀ i c, text[i]? = some c → (∀ token ∈ tokens, ¬token.span.Covers i) →
    c ∈ [' ', '\t', '\r', '\n']

namespace Cursor

@[simp] theorem start_span (cursor : Cursor) (length : Nat) (file : String) :
    (cursor.span length file).start = cursor.offset := rfl

@[simp] theorem stop_span (cursor : Cursor) (length : Nat) (file : String) :
    (cursor.span length file).stop = (cursor.offset + length : Nat) := rfl

@[simp] theorem length_span (cursor : Cursor) (length : Nat) (file : String) :
    (cursor.span length file).length = length := rfl

end Cursor

@[simp] theorem Lexeme.span_token (lexeme : Lexeme) (start : Cursor) (file : String) :
    (lexeme.token start file).span = start.span lexeme.chars.length file := rfl

theorem mem_separators_iff (c : Char) :
    c ∈ [' ', '\t', '\r', '\n'] ↔ isSeparator c = true := by
  simp [isSeparator, or_assoc]

-- Behind `before.length` characters of a text a token fits if it is what comes next.
theorem Munch.fits {lexeme : Lexeme} {chars rest : List Char} (h : Munch lexeme chars rest)
    (before : List Char) (start : Cursor) (hstart : start.offset = before.length) (file : String) :
    (lexeme.token start file).Fits (before ++ chars) file := by
  obtain ⟨spells, split, longest⟩ := h
  have hlexeme := spells.lexeme_token start file
  have hpositive : 0 < lexeme.chars.length := List.length_pos_iff.mpr spells.nonempty
  have hlength := congrArg List.length split
  simp only [List.length_append] at hlength
  refine ⟨?_, ⟨?_, ?_⟩, ?_, ?_, ?_, ?_, rfl⟩
  · simp only [Lexeme.span_token, Cursor.start_span, Cursor.stop_span]
    omega
  · simp only [Lexeme.span_token, Cursor.start_span]
    omega
  · simp only [Lexeme.span_token, Cursor.stop_span, List.length_append]
    omega
  · rw [hlexeme, String.toList_ofList, split]
    simp [Span.cut, hstart]
  · rw [hlexeme, String.toList_ofList]
    intro kind
    constructor
    · intro hkind
      rw [hkind.kind_eq]
      exact spells.kind_eq.symm
    · rintro rfl
      exact spells
  · intro c hc
    apply longest
    simp only [Lexeme.span_token, Cursor.stop_span, Int.toNat_natCast, hstart, split] at hc
    rw [← List.append_assoc, List.getElem?_append_right (by simp)] at hc
    simpa [List.head?_eq_getElem?] using hc
  · unfold Lexeme.token
    split <;> simp_all

namespace Tiles

variable {file : String} {start : Cursor} {chars : List Char} {tokens : List Token} {eof : Token}

theorem start_le (h : Tiles file start chars tokens eof) :
    ∀ token ∈ tokens, (start.offset : Int) ≤ token.span.start := by
  induction h with
  | eof separators => simp
  | @token start blanks chars rest lexeme tokens eof separators munch tiles ih =>
    intro token htoken
    rcases List.mem_cons.mp htoken with rfl | htoken
    · rw [Lexeme.span_token, Cursor.start_span, Cursor.offset_pastAll]
      omega
    · have hrest := ih token htoken
      rw [Cursor.offset_pastAll, Cursor.offset_pastAll] at hrest
      omega

theorem increasing (h : Tiles file start chars tokens eof) :
    tokens.Pairwise fun first second => first.span.stop ≤ second.span.start := by
  induction h with
  | eof separators => exact List.Pairwise.nil
  | @token start blanks chars rest lexeme tokens eof separators munch tiles ih =>
    refine List.Pairwise.cons (fun token htoken => ?_) ih
    have hrest := tiles.start_le token htoken
    rw [Cursor.offset_pastAll] at hrest
    rwa [Lexeme.span_token, Cursor.stop_span]

theorem fits (h : Tiles file start chars tokens eof) (before : List Char)
    (hstart : start.offset = before.length) :
    ∀ token ∈ tokens, token.Fits (before ++ chars) file := by
  induction h generalizing before with
  | eof separators => simp
  | @token start blanks chars rest lexeme tokens eof separators munch tiles ih =>
    have hblanks : (start.pastAll blanks).offset = (before ++ blanks).length := by
      rw [Cursor.offset_pastAll, List.length_append, hstart]
    intro token htoken
    rw [← List.append_assoc]
    rcases List.mem_cons.mp htoken with rfl | htoken
    · exact munch.fits (before ++ blanks) _ hblanks file
    · rw [munch.split, ← List.append_assoc]
      refine ih (before ++ blanks ++ lexeme.chars) ?_ token htoken
      rw [Cursor.offset_pastAll, hblanks, List.length_append, List.length_append,
        List.length_append]

theorem separators (h : Tiles file start chars tokens eof) (i : Nat) (c : Char)
    (hc : chars[i]? = some c)
    (huncovered : ∀ token ∈ tokens, ¬token.span.Covers (start.offset + i)) :
    isSeparator c = true := by
  induction h generalizing i with
  | eof separators => exact separators c (List.mem_of_getElem? hc)
  | @token start blanks chars rest lexeme tokens eof separators munch tiles ih =>
    by_cases hblank : i < blanks.length
    · rw [List.getElem?_append_left hblank] at hc
      exact separators c (List.mem_of_getElem? hc)
    have hfirst := huncovered _ List.mem_cons_self
    simp only [Span.Covers, Lexeme.span_token, Cursor.start_span, Cursor.stop_span,
      Cursor.offset_pastAll] at hfirst
    have hbehind : blanks.length + lexeme.chars.length ≤ i := by omega
    rw [munch.split, ← List.append_assoc, List.getElem?_append_right (by simpa using hbehind)] at hc
    refine ih _ hc fun token htoken => ?_
    have hrest := huncovered token (List.mem_cons_of_mem _ htoken)
    have hoffset : ((start.pastAll blanks).pastAll lexeme.chars).offset +
        (i - (blanks ++ lexeme.chars).length) = start.offset + i := by
      rw [Cursor.offset_pastAll, Cursor.offset_pastAll, List.length_append]
      omega
    rwa [hoffset]

theorem eof_eq (h : Tiles file start chars tokens eof) :
    ∃ cursor : Cursor, eof = cursor.eof file ∧ cursor.offset = start.offset + chars.length := by
  induction h with
  | eof separators => exact ⟨_, rfl, Cursor.offset_pastAll _ _⟩
  | @token start blanks chars rest lexeme tokens eof separators munch tiles ih =>
    obtain ⟨cursor, heof, hoffset⟩ := ih
    refine ⟨cursor, heof, ?_⟩
    rw [hoffset, Cursor.offset_pastAll, Cursor.offset_pastAll, munch.split, List.length_append,
      List.length_append]
    omega

theorem kind_ne (h : Tiles file start chars tokens eof) :
    ∀ token ∈ tokens, token.kind ≠ .eof ∧ token.kind ≠ .empty := by
  induction h with
  | eof separators => simp
  | token separators munch tiles ih =>
    intro token htoken
    rcases List.mem_cons.mp htoken with rfl | htoken
    · exact munch.spells.kind_ne
    · exact ih token htoken

end Tiles

-- Cutting a text into tokens gives a partition of it, with one end behind the tokens.
theorem tokenize_partition (text file : String) :
    ∃ tokens eof, tokenize text file = tokens ++ [eof] ∧ Partition text.toList file tokens ∧
      (∀ token ∈ tokens, token.kind ≠ .eof ∧ token.kind ≠ .empty) ∧
      eof.kind = .eof ∧ eof.text = none ∧ eof.span.offset = (text.length : Int) ∧
      eof.span.length = 0 ∧ eof.span.file = file := by
  have htiles := Lexer.drain_tiles { source := .ofString text, file } rfl
  obtain ⟨cursor, heof, hoffset⟩ := htiles.eof_eq
  refine ⟨_, _, rfl, ⟨?_, htiles.increasing, ?_⟩, htiles.kind_ne, ?_⟩
  · exact htiles.fits [] rfl
  · intro i c hc huncovered
    rw [mem_separators_iff]
    exact htiles.separators i c hc (by simpa using huncovered)
  · rw [heof]
    refine ⟨rfl, rfl, ?_, rfl, rfl⟩
    have hend : cursor.offset = text.length := by
      simpa [Source.visible, Source.ofString, String.length_toList] using hoffset
    show (cursor.offset : Int) = text.length
    rw [hend]

end Calculator
