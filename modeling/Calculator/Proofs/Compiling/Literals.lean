import Calculator.Proofs.Compiling.Endings
import Calculator.Proofs.Decimal.Fractions
import Calculator.Proofs.Decimal.Nearness
import Calculator.Proofs.Lexing.Joining

namespace Calculator

open Grammar Calculator.Parser

-- A text of digits, as the lexer takes them.
structure Digits (text : String) : Prop where
  nonempty : text ≠ ""
  isDigit : ∀ c ∈ text.toList, c.isDigit = true

def digitsNumber (digits : String) : Nat := Nat.ofDigitChars 10 digits.toList 0

-- The numbers that literals denote. Only those without a point are limited in length.
inductive Denotes : String → ℚ → Prop where
  | integer {digits : String} (isDigits : Digits digits) (short : digits.length ≤ 4300) :
      Denotes digits (digitsNumber digits)
  | real {whole fraction : String} (isWhole : Digits whole) (isFraction : Digits fraction) :
      Denotes (whole ++ "." ++ fraction)
        (digitsNumber whole + digitsNumber fraction / 10 ^ fraction.length)

theorem Reading.ofString_of_tiles {text : String} {tokens : List Token} {eof : Token}
    {d : Derivation (.one .expression)} (htiles : Tiles unnamedInput {} text.toList tokens eof)
    (hd : d.Within tokens) : Reading.ofString text = ⟨d.tree, []⟩ := by
  obtain ⟨htokens, heof⟩ := Lexer.drain_of_tiles { source := .ofString text } rfl htiles
  obtain ⟨cursor, hend, _⟩ := htiles.eof_eq
  have hintact : Parser.State.Intact { rest := tokens, eof } := ⟨by rw [hend]; rfl, rfl⟩
  obtain ⟨htree, hreports⟩ := State.takeExpression_of_derivation hintact hd
  rw [ofString, ofSource, htokens, heof, ofTokens, htree, hreports]
  rfl

-- The derivation of an expression that is a number only.
def Grammar.Derivation.ofNumber (number : Derivation (.one .number)) :
    Derivation (.one .expression) :=
  .comparison (.chain (.chain (.chain (.literal number) .nothing) .nothing) .nothing)

theorem Reading.ofString_of_number {text : String} {tokens : List Token} {eof : Token}
    (number : Derivation (.one .number)) (htiles : Tiles unnamedInput {} text.toList tokens eof)
    (htokens : number.tokens = tokens) (hadmissible : number.Admissible)
    (hdepth : number.depth = 0) : Reading.ofString text = ⟨number.tree, []⟩ := by
  have hsame : (Derivation.ofNumber number).tokens = tokens := by
    simp [Derivation.ofNumber, Derivation.tokens, htokens]
  have hfits : (Derivation.ofNumber number).depth ≤ 64 := by
    simp [Derivation.ofNumber, Derivation.depth, hdepth]
  exact ofString_of_tiles htiles ⟨hsame, ⟨⟨⟨hadmissible, trivial⟩, trivial⟩, trivial⟩, hfits⟩

namespace Munch

theorem digits {digits rest : List Char} (hsome : digits ≠ [])
    (hdigits : ∀ c ∈ digits, c.isDigit = true)
    (hrest : ∀ c ∈ rest.head?, c.isDigit = false) :
    Munch ⟨.number, digits⟩ (digits ++ rest) rest :=
  ⟨.number hsome hdigits, rfl, hrest⟩

theorem period (rest : List Char) : Munch ⟨.period, ['.']⟩ ('.' :: rest) rest :=
  ⟨.operator rfl rfl, rfl, fun _ _ => rfl⟩

end Munch

namespace Digits

variable {digits whole fraction : String}

theorem toList_ne_nil (h : Digits digits) : digits.toList ≠ [] := by simpa using h.nonempty

theorem munch (h : Digits digits) : Munch ⟨.number, digits.toList⟩ digits.toList [] :=
  ⟨.number h.toList_ne_nil h.isDigit, (List.append_nil _).symm, by simp⟩

theorem lexeme_token (h : Digits digits) (start : Cursor) (file : String) :
    (Lexeme.token ⟨.number, digits.toList⟩ start file).lexeme = digits := by
  rw [Spells.lexeme_token (.number h.toList_ne_nil h.isDigit), String.ofList_toList]

theorem reading_integer (h : Digits digits) (hshort : digits.length ≤ 4300) :
    Reading.ofString digits =
      ⟨.integer (Lexeme.token ⟨.number, digits.toList⟩ {} unnamedInput) (digitsNumber digits),
        []⟩ := by
  have hlexeme := h.lexeme_token {} unnamedInput
  let number : Derivation (.one .number) :=
    .integer (Lexeme.token ⟨.number, digits.toList⟩ {} unnamedInput) rfl
  have hadmissible : number.Admissible := by
    simp only [number, Derivation.Admissible, hlexeme]
    exact hshort
  have htree : number.tree = .integer (Lexeme.token ⟨.number, digits.toList⟩ {} unnamedInput)
      (digitsNumber digits) := by
    simp only [number, Derivation.tree, hlexeme]
    rfl
  rw [Reading.ofString_of_number number (.at_once h.munch (.nil ..)) rfl hadmissible rfl, htree]

theorem reading_real (hwhole : Digits whole) (hfraction : Digits fraction) :
    ∃ first point last, Reading.ofString (whole ++ "." ++ fraction) =
      ⟨.real first point last (Decimal.ofParts whole.toList fraction.toList), []⟩ := by
  have hchars : (whole ++ "." ++ fraction).toList = whole.toList ++ '.' :: fraction.toList := by
    simp
  have hpoint : ∀ c ∈ ('.' :: fraction.toList).head?, c.isDigit = false := by
    rintro c ⟨⟩
    rfl
  have hfirst : Munch ⟨.number, whole.toList⟩ (whole ++ "." ++ fraction).toList
      ('.' :: fraction.toList) := by
    rw [hchars]
    exact .digits hwhole.toList_ne_nil hwhole.isDigit hpoint
  have htouch : ∀ (cursor : Cursor) (chars : List Char), (cursor.pastAll chars).offset =
      (cursor.offset : Int) + chars.length := by
    intro cursor chars
    rw [Cursor.offset_pastAll]
    push_cast
    rfl
  let behind : Cursor := Cursor.pastAll {} whole.toList
  let first := Lexeme.token ⟨.number, whole.toList⟩ {} unnamedInput
  let point := Lexeme.token ⟨.period, ['.']⟩ behind unnamedInput
  let last := Lexeme.token ⟨.number, fraction.toList⟩ (behind.pastAll ['.']) unnamedInput
  let number : Derivation (.one .number) := .real first point last rfl rfl rfl
  have hadmissible : number.Admissible := ⟨htouch {} whole.toList, htouch behind ['.']⟩
  have htree : number.tree =
      .real first point last (Decimal.ofParts whole.toList fraction.toList) := by
    simp only [number, first, last, Derivation.tree, hwhole.lexeme_token, hfraction.lexeme_token]
  refine ⟨first, point, last, ?_⟩
  rw [Reading.ofString_of_number number
    (.at_once hfirst (.at_once (.period _) (.at_once hfraction.munch (.nil ..)))) rfl hadmissible
    rfl, htree]

end Digits

-- What becomes of a text that is read as a value.
structure Yields (settings : Settings) (text : String) (value : Float) : Prop where
  diagnostics_eq : (Reading.ofString text).diagnostics = []
  evaluate_eq : evaluate (.ofString text) settings = .ok value
  respond_eq : ∃ log, respond settings text =
    .ok { ok := true, lines := [Decimal.answer value], log }

theorem Yields.of_constant {text : String} {expression : Expression} {value : Float}
    (h : Reading.ofString text = ⟨expression, []⟩) {settings : Settings}
    (hvalue : Compiler.chain settings expression = .ok { first := .constant value }) :
    Yields settings text value := by
  have hclean : (Reading.ofString text).diagnostics = [] := by rw [h]
  have hprogram : Compiler.generate Reading.maxHeight settings (Reading.ofString text).expression =
      .ok (Program.sequence (.constant value) []) := by
    rw [Compiler.generate_eq_compile settings (Reading.ready_ofString hclean), h,
      Compiler.compile, hvalue]
    rfl
  have hresult : Program.value (Program.sequence (.constant value) []) = .ok value := rfl
  refine ⟨hclean, ?_, ?_⟩
  · rw [Ending.evaluate_of_clean hclean, hprogram]
    rfl
  · simp [respond, hclean, hprogram, hresult]

namespace Digits

variable {digits whole fraction : String}

theorem yields_integer (h : Digits digits) (hshort : digits.length ≤ 4300) (settings : Settings) :
    Yields settings digits (Decimal.nearest (digitsNumber digits) 1) := by
  have hvalue : Compiler.wholeValue (Lexeme.token ⟨.number, digits.toList⟩ {} unnamedInput) =
      .ok (Decimal.nearest (digitsNumber digits) 1) := by
    have hnumeral := Decimal.ofString?_ofList_digits h.toList_ne_nil h.isDigit
    rw [String.ofList_toList] at hnumeral
    have htext : (Lexeme.token ⟨.number, digits.toList⟩ {} unnamedInput).text.getD "" = digits :=
      String.ofList_toList
    rw [Compiler.wholeValue, htext, if_neg h.nonempty, hnumeral]
    rfl
  refine .of_constant (h.reading_integer hshort) ?_
  rw [Compiler.chain, hvalue]
  rfl

theorem yields_real (hwhole : Digits whole) (hfraction : Digits fraction) (settings : Settings) :
    Yields settings (whole ++ "." ++ fraction)
      (Decimal.ofParts whole.toList fraction.toList) := by
  obtain ⟨first, point, last, hread⟩ := reading_real hwhole hfraction
  exact .of_constant hread rfl

end Digits

-- A literal evaluates to a ratio rounded, the ratio being the number it denotes.
theorem Denotes.evaluate_eq {text : String} {q : ℚ} (h : Denotes text q) (settings : Settings) :
    ∃ num den : Nat, 0 < den ∧ q = (num : ℚ) / den ∧
      evaluate (.ofString text) settings = .ok (Decimal.nearest num den) := by
  cases h with
  | integer isDigits short =>
    exact ⟨_, 1, one_pos, by simp, (isDigits.yields_integer short settings).evaluate_eq⟩
  | @real whole fraction isWhole isFraction =>
    refine ⟨_, _, Nat.pow_pos (by decide), ?_,
      (isWhole.yields_real isFraction settings).evaluate_eq⟩
    have hpower : ((10 : ℚ) ^ fraction.length) ≠ 0 := by positivity
    rw [Decimal.digitsValue_append, String.length_toList]
    push_cast
    rw [add_div, mul_div_cancel_right₀ _ hpower]
    rfl

-- Literals evaluate to the nearest doubles, and literals of one number to one double. That of a
-- greater number is never smaller.
theorem literals_are_nearest (settings : Settings) {text text' : String} {q q' : ℚ}
    (h : Denotes text q) (h' : Denotes text' q') :
    ∃ x x' : Float, evaluate (.ofString text) settings = .ok x ∧
      evaluate (.ofString text') settings = .ok x' ∧
      Decimal.IsNearest q x ∧ Decimal.IsNearest q' x' ∧
      (q = q' → x = x') ∧ (q ≤ q' → x ≤ x') := by
  obtain ⟨num, den, hden, rfl, hvalue⟩ := h.evaluate_eq settings
  obtain ⟨num', den', hden', rfl, hvalue'⟩ := h'.evaluate_eq settings
  exact ⟨_, _, hvalue, hvalue', Decimal.isNearest_nearest num hden,
    Decimal.isNearest_nearest num' hden', Decimal.nearest_congr hden hden',
    Decimal.nearest_le_nearest hden hden'⟩

-- A number halfway between two doubles, written without a point and with one.
theorem literals_of_halfway_number :
    Denotes "9007199254740993" 9007199254740993 ∧ Denotes "09007199254740993.0" 9007199254740993 ∧
      ∃ x x' : Float, evaluate (.ofString "9007199254740993") {} = .ok x ∧
        evaluate (.ofString "09007199254740993.0") {} = .ok x' ∧
        Decimal.IsNearest 9007199254740993 x ∧ Decimal.IsNearest 9007199254740993 x' ∧
        ((9007199254740993 : ℚ) = 9007199254740993 → x = x') ∧
        ((9007199254740993 : ℚ) ≤ 9007199254740993 → x ≤ x') := by
  have hdigits : Digits "9007199254740993" := ⟨by simp, by simp⟩
  have hwhole : Digits "09007199254740993" := ⟨by simp, by simp⟩
  have hfraction : Digits "0" := ⟨by simp, by simp⟩
  have hinteger : Denotes "9007199254740993" 9007199254740993 := by
    have hdenotes := Denotes.integer hdigits (by decide)
    have hnumber : digitsNumber "9007199254740993" = 9007199254740993 := by decide
    rwa [hnumber] at hdenotes
  have hreal : Denotes "09007199254740993.0" 9007199254740993 := by
    have hdenotes := Denotes.real hwhole hfraction
    have hnumber : digitsNumber "09007199254740993" = 9007199254740993 := by decide
    have hnone : digitsNumber "0" = 0 := by decide
    rw [hnumber, hnone, Nat.cast_zero, zero_div, add_zero] at hdenotes
    exact hdenotes
  exact ⟨hinteger, hreal, literals_are_nearest {} hinteger hreal⟩

end Calculator
