import Calculator.Proofs.Lexing.Joining

namespace Calculator

-- The characters that a token of a kind may have.
inductive Lexeme.WellFormed : Lexeme → Prop where
  | number {digits : List Char} (nonempty : digits ≠ [])
      (digit : ∀ c ∈ digits, c.isDigit = true) : WellFormed ⟨.number, digits⟩
  | identifier {c : Char} {rest : List Char} (starts : startsName c = true)
      (continues : ∀ d ∈ rest, continuesName d = true)
      (unknown : ∀ kind, (String.ofList (c :: rest), kind) ∉ Kind.keywords) :
      WellFormed ⟨.identifier, c :: rest⟩
  | symbol {kind : Kind} {chars : List Char}
      (listed : (kind, String.ofList chars) ∈ Kind.symbols) : WellFormed ⟨kind, chars⟩
  -- a character that begins no token of another kind
  | invalid {c : Char} (noSeparator : isSeparator c = false)
      (noStart : ∀ kind rest, kind ≠ .invalid → ¬Spells kind (c :: rest)) :
      WellFormed ⟨.invalid, [c]⟩

-- Lexemes one behind the other with separators between them. Separators may stand behind the last.
inductive Joins : List Lexeme → List Char → Prop where
  | nothing {blanks : List Char} (separators : ∀ c ∈ blanks, isSeparator c = true) :
      Joins [] blanks
  | last (lexeme : Lexeme) : Joins [lexeme] lexeme.chars
  | more {lexeme : Lexeme} {rest : List Lexeme} {gap chars : List Char} (nonempty : gap ≠ [])
      (separators : ∀ c ∈ gap, isSeparator c = true) (joins : Joins rest chars) :
      Joins (lexeme :: rest) (lexeme.chars ++ (gap ++ chars))

-- The kind of a token and its characters.
def Token.toLexeme (token : Token) : Lexeme := ⟨token.kind, token.lexeme.toList⟩

theorem Kind.mem_keywords_of_spelling {kind : Kind} {word : String}
    (hoperator : kind.isOperator = false) (h : kind.spelling? = some word) :
    (word, kind) ∈ keywords := by
  cases kind <;> simp_all [isOperator, spelling?, keywords]

namespace Spells

variable {kind : Kind} {chars : List Char} {c : Char}

theorem of_mem_symbols (h : (kind, String.ofList chars) ∈ Kind.symbols) : Spells kind chars := by
  rw [Kind.mem_symbols_iff] at h
  cases hoperator : kind.isOperator with
  | true => exact .operator hoperator h
  | false => exact .keyword (Kind.mem_keywords_of_spelling hoperator h)

theorem of_starts_nothing (hseparator : isSeparator c = false)
    (hstart : ∀ kind rest, kind ≠ .invalid → ¬Spells kind (c :: rest)) : Spells .invalid [c] := by
  refine .invalid (Bool.eq_false_iff.mpr fun hdigit => ?_) (Bool.eq_false_iff.mpr fun hname => ?_)
    hseparator fun kind hspelled => ?_
  · exact hstart .number [] (by decide) (.number (by simp) (by simpa using hdigit))
  · have hword := Kind.isWord_ofWord (String.ofList [c])
    refine hstart _ [] ?_ (spells_ofWord hname (by simp))
    intro hinvalid
    rw [hinvalid] at hword
    cases hword
  · refine hstart kind [] ?_ (of_mem_symbols ((Kind.mem_symbols_iff _ _).mpr hspelled))
    rintro rfl
    cases hspelled

end Spells

theorem Lexeme.WellFormed.spells {lexeme : Lexeme} (h : lexeme.WellFormed) :
    Spells lexeme.kind lexeme.chars := by
  cases h with
  | number nonempty digit => exact .number nonempty digit
  | identifier starts continues unknown => exact .identifier starts continues unknown
  | symbol listed => exact .of_mem_symbols listed
  | invalid noSeparator noStart => exact .of_starts_nothing noSeparator noStart

theorem Spells.toLexeme_token {lexeme : Lexeme} (h : Spells lexeme.kind lexeme.chars)
    (start : Cursor) (file : String) : (lexeme.token start file).toLexeme = lexeme := by
  rw [Token.toLexeme, h.lexeme_token, String.toList_ofList]
  rfl

theorem Joins.tiles {lexemes : List Lexeme} {chars : List Char} (h : Joins lexemes chars)
    (hspells : ∀ lexeme ∈ lexemes, Spells lexeme.kind lexeme.chars) (file : String)
    (start : Cursor) :
    ∃ tokens cursor, Tiles file start chars tokens (Cursor.eof cursor file) ∧
      tokens.map Token.toLexeme = lexemes := by
  induction h generalizing start with
  | nothing separators => exact ⟨[], _, .eof separators, rfl⟩
  | last lexeme =>
    have hlast := hspells lexeme List.mem_cons_self
    have hmunch : Munch lexeme (lexeme.chars ++ []) [] := .of_spells hlast (by simp)
    rw [List.append_nil] at hmunch
    exact ⟨_, _, .at_once hmunch (.nil file _), by simp [hlast.toLexeme_token]⟩
  | @more lexeme rest gap chars nonempty separators joins ih =>
    obtain ⟨hfirst, hrest⟩ := List.forall_mem_cons.mp hspells
    have hmunch : Munch lexeme (lexeme.chars ++ (gap ++ chars)) (gap ++ chars) := by
      obtain ⟨first, others, rfl⟩ := List.exists_cons_of_ne_nil nonempty
      exact .of_spells hfirst (by rintro c ⟨⟩; exact separators first List.mem_cons_self)
    obtain ⟨tokens, cursor, htiles, htokens⟩ :=
      ih hrest ((start.pastAll lexeme.chars).pastAll gap)
    refine ⟨_, cursor, .at_once hmunch (.blank separators htiles), ?_⟩
    rw [List.map_cons, hfirst.toLexeme_token, htokens]

theorem Tiles.spells {file : String} {start : Cursor} {chars : List Char} {tokens : List Token}
    {eof : Token} (h : Tiles file start chars tokens eof) :
    ∀ lexeme ∈ tokens.map Token.toLexeme, Spells lexeme.kind lexeme.chars := by
  induction h with
  | eof separators => simp
  | @token start blanks chars rest lexeme tokens eof separators munch tiles ih =>
    rw [List.map_cons, List.forall_mem_cons, munch.spells.toLexeme_token]
    exact ⟨munch.spells, ih⟩

def Lexeme.text (lexeme : Lexeme) : String := String.ofList lexeme.chars

theorem Token.text_toLexeme (token : Token) : token.toLexeme.text = token.lexeme :=
  String.ofList_toList

theorem toList_space : (" " : String).toList = [' '] := rfl

theorem Joins.intercalate (lexemes : List Lexeme) {ending : List String}
    (hending : ending = [] ∨ ending = [""]) :
    Joins lexemes (" ".intercalate (lexemes.map Lexeme.text ++ ending)).toList := by
  induction lexemes with
  | nil => rcases hending with rfl | rfl <;> exact .nothing (by simp)
  | cons first rest ih =>
    rw [List.map_cons, List.cons_append]
    cases hbehind : rest.map Lexeme.text ++ ending with
    | nil =>
      obtain ⟨hrest, -⟩ := List.append_eq_nil_iff.mp hbehind
      rw [List.map_eq_nil_iff.mp hrest, String.intercalate_singleton, Lexeme.text,
        String.toList_ofList]
      exact .last first
    | cons next others =>
      rw [hbehind] at ih
      rw [String.intercalate_cons_cons, String.toList_append, String.toList_append,
        List.append_assoc, toList_space, Lexeme.text, String.toList_ofList]
      exact .more (by simp) (by simp [isSeparator]) ih

theorem Cursor.toLexeme_eof (cursor : Cursor) (file : String) :
    (cursor.eof file).toLexeme = ⟨.eof, []⟩ := rfl

theorem Joins.tokenize {lexemes : List Lexeme} {text : String} (h : Joins lexemes text.toList)
    (hspells : ∀ lexeme ∈ lexemes, Spells lexeme.kind lexeme.chars) (file : String) :
    (Calculator.tokenize text file).map Token.toLexeme = lexemes ++ [⟨.eof, []⟩] := by
  obtain ⟨tokens, cursor, htiles, htokens⟩ := h.tiles hspells file {}
  obtain ⟨hdrain, heof⟩ := Lexer.drain_of_tiles { source := .ofString text, file } rfl htiles
  rw [Calculator.tokenize, Lexer.tokenize, hdrain, heof, List.map_append, htokens,
    List.map_singleton, Cursor.toLexeme_eof]

-- The tokens of a text in which well-formed lexemes are joined by separators are those lexemes.
-- So the tokens of any text, joined by spaces, are the tokens again, whether the end is joined too
-- or not.
theorem lexing_undoes_spelling (file : String) :
    (∀ (lexemes : List Lexeme) (text : String), (∀ lexeme ∈ lexemes, lexeme.WellFormed) →
      Joins lexemes text.toList →
        (tokenize text file).map Token.toLexeme = lexemes ++ [⟨.eof, []⟩]) ∧
    ∀ text file' : String, let tokens := tokenize text file'
      (tokenize (" ".intercalate (tokens.map Token.lexeme)) file).map Token.toLexeme =
          tokens.map Token.toLexeme ∧
        (tokenize (" ".intercalate (tokens.dropLast.map Token.lexeme)) file).map Token.toLexeme =
          tokens.map Token.toLexeme := by
  refine ⟨fun lexemes text hformed hjoins => ?_, ?_⟩
  · exact hjoins.tokenize (fun lexeme hlexeme => (hformed lexeme hlexeme).spells) file
  · intro text file' tokens
    let lexer : Lexer := { source := .ofString text, file := file' }
    have htiles := lexer.drain_tiles rfl
    obtain ⟨cursor, heof, _⟩ := htiles.eof_eq
    have htokens : tokens = lexer.drain.tokens ++ [cursor.eof file'] :=
      congrArg (fun eof => lexer.drain.tokens ++ [eof]) heof
    have htexts : lexer.drain.tokens.map Token.lexeme =
        (lexer.drain.tokens.map Token.toLexeme).map Lexeme.text := by
      rw [List.map_map]
      exact List.map_congr_left fun token _ => token.text_toLexeme.symm
    have hsame : tokens.map Token.toLexeme =
        lexer.drain.tokens.map Token.toLexeme ++ [⟨.eof, []⟩] := by
      rw [htokens, List.map_append, List.map_singleton, Cursor.toLexeme_eof]
    have hnothing : (cursor.eof file').lexeme = "" := rfl
    rw [hsame]
    constructor
    · rw [htokens, List.map_append, List.map_singleton, htexts, hnothing]
      exact (Joins.intercalate _ (.inr rfl)).tokenize htiles.spells file
    · rw [htokens, List.dropLast_concat, htexts, ← List.append_nil (List.map Lexeme.text _)]
      exact (Joins.intercalate _ (.inl rfl)).tokenize htiles.spells file

-- A name that begins like a keyword, and an operator that would be longer if the separator behind
-- it were not there.
theorem spelled_apart :
    let lexemes : List Lexeme :=
      [⟨.identifier, ['e', 'n', 'd', 's']⟩, ⟨.less, ['<']⟩, ⟨.equals, ['=']⟩]
    (tokenize "ends\r\n<\t=" "f").map Token.toLexeme = lexemes ++ [⟨.eof, []⟩] := by
  intro lexemes
  have hformed : ∀ lexeme ∈ lexemes, lexeme.WellFormed := by
    simp only [lexemes, List.forall_mem_cons, List.not_mem_nil, false_implies, implies_true,
      and_true]
    have hcontinues : ['n', 'd', 's'].all continuesName = true := by decide
    exact ⟨.identifier (by decide) (List.all_eq_true.mp hcontinues) (by simp [Kind.keywords]),
      .symbol (by decide), .symbol (by decide)⟩
  have hoperators : Joins [⟨.less, ['<']⟩, ⟨.equals, ['=']⟩] ['<', '\t', '='] :=
    @Joins.more ⟨.less, ['<']⟩ _ ['\t'] ['='] (by simp) (by simp [isSeparator])
      (.last ⟨.equals, ['=']⟩)
  have hjoins : Joins lexemes "ends\r\n<\t=".toList :=
    @Joins.more ⟨.identifier, ['e', 'n', 'd', 's']⟩ _ ['\r', '\n'] _ (by simp)
      (by simp [isSeparator]) hoperators
  exact (lexing_undoes_spelling "f").1 lexemes _ hformed hjoins

end Calculator
