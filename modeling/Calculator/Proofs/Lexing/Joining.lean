import Calculator.Proofs.Lexing.Partition
import Calculator.Proofs.Trees.Moving

namespace Calculator

namespace Spells

variable {kind kind' : Kind} {c : Char} {rest : List Char}

theorem kind_eq_number (h : Spells kind (c :: rest)) (hc : c.isDigit = true) : kind = .number := by
  rw [h.kind_eq, Kind.ofChars, if_pos hc]

theorem isWord_kind (h : Spells kind (c :: rest)) (hc : startsName c = true) :
    kind.isWord = true := by
  rw [h.kind_eq, Kind.ofChars, if_neg (by rw [isDigit_of_startsName hc]; decide), if_pos hc]
  exact Kind.isWord_ofWord _

theorem continuesName_of_starts (h : Spells kind (c :: rest)) (hc : startsName c = true) :
    ∀ d ∈ rest, continuesName d = true := by
  have hword := h.isWord_kind hc
  generalize hchars : c :: rest = chars at h
  cases h with
  | number nonempty digit => cases hword
  | keyword known =>
    obtain ⟨_, first, others, hsplit, _, hothers⟩ := Kind.word_of_mem_keywords known
    obtain ⟨rfl, rfl⟩ := List.cons.inj (hchars.trans hsplit)
    exact hothers
  | identifier starts continues unknown =>
    obtain ⟨rfl, rfl⟩ := List.cons.inj hchars
    exact continues
  | operator operator spelled => cases kind <;> simp_all [Kind.isWord, Kind.isOperator]
  | invalid => cases hword

theorem withEquals_of_operator (h : Spells kind (c :: rest)) (hdigit : c.isDigit = false)
    (hname : startsName c = false) (hrest : rest ≠ []) :
    rest = ['='] ∧ (c = '=' ∨ c = '<' ∨ c = '>') := by
  generalize hchars : c :: rest = chars at h
  cases h with
  | number nonempty digit =>
    have hc := digit c (hchars ▸ List.mem_cons_self)
    rw [hdigit] at hc
    cases hc
  | keyword known =>
    obtain ⟨_, first, others, hsplit, hfirst, _⟩ := Kind.word_of_mem_keywords known
    obtain ⟨rfl, rfl⟩ := List.cons.inj (hchars.trans hsplit)
    rw [hname] at hfirst
    cases hfirst
  | identifier starts continues unknown =>
    obtain ⟨rfl, rfl⟩ := List.cons.inj hchars
    rw [hname] at starts
    cases starts
  | operator operator spelled =>
    subst hchars
    have hspelled := congrArg (Option.map String.toList) spelled
    simp only [Option.map_some, String.toList_ofList] at hspelled
    cases kind <;> simp [Kind.isOperator, Kind.spelling?] at operator hspelled <;> grind
  | invalid => exact absurd (List.cons.inj hchars).2 hrest

-- Where one token begins another, the first one could go on with the next character.
theorem continuedBy_of_longer {chars more : List Char} (h : Spells kind chars)
    (h' : Spells kind' (chars ++ c :: more)) : kind.continuedBy c = true := by
  obtain ⟨first, rest, rfl⟩ := List.exists_cons_of_ne_nil h.nonempty
  -- the first character, which the tokens share, tells of which sort they are
  by_cases hdigit : first.isDigit = true
  · have hnumber := h'.kind_eq_number hdigit
    rw [h.kind_eq_number hdigit]
    exact (hnumber ▸ h').isDigit c (by simp)
  by_cases hname : startsName first = true
  · rw [Kind.continuedBy_of_isWord (h.isWord_kind hname)]
    exact h'.continuesName_of_starts hname c (by simp)
  · obtain ⟨hrest, hfirst⟩ := h'.withEquals_of_operator (Bool.eq_false_iff.mpr hdigit)
      (Bool.eq_false_iff.mpr hname) (by simp)
    obtain ⟨rfl, rfl, rfl⟩ : rest = [] ∧ c = '=' ∧ more = [] := by
      cases rest with
      | nil => simpa using hrest
      | cons second others => simp at hrest
    rw [h.kind_eq]
    rcases hfirst with rfl | rfl | rfl <;> decide

end Spells

theorem Kind.continuedBy_of_isSeparator (kind : Kind) {c : Char} (h : isSeparator c = true) :
    kind.continuedBy c = false := by
  simp only [isSeparator, Bool.or_eq_true, decide_eq_true_eq] at h
  rcases h with ((rfl | rfl) | rfl) | rfl <;> cases kind <;> decide

namespace Munch

variable {lexeme lexeme' : Lexeme} {chars rest rest' : List Char}

theorem of_spells (h : Spells lexeme.kind lexeme.chars)
    (hrest : ∀ c ∈ rest.head?, isSeparator c = true) : Munch lexeme (lexeme.chars ++ rest) rest :=
  ⟨h, rfl, fun c hc => lexeme.kind.continuedBy_of_isSeparator (hrest c hc)⟩

-- What stands behind a token may change, if it still begins with the same character or a separator.
theorem behind (h : Munch lexeme chars rest)
    (hrest' : (∀ c ∈ rest'.head?, isSeparator c = true) ∨ rest'.head? = rest.head?) :
    Munch lexeme (lexeme.chars ++ rest') rest' := by
  rcases hrest' with hseparator | hsame
  · exact of_spells h.spells hseparator
  · exact ⟨h.spells, rfl, fun c hc => h.longest c (hsame ▸ hc)⟩

theorem length_le (h : Munch lexeme chars rest) (h' : Munch lexeme' chars rest') :
    lexeme'.chars.length ≤ lexeme.chars.length := by
  refine Nat.le_of_not_lt fun hlonger => ?_
  have hsplit : lexeme.chars ++ rest = lexeme'.chars ++ rest' := h.split.symm.trans h'.split
  obtain ⟨more, hmore, hrest⟩ : ∃ more, lexeme'.chars = lexeme.chars ++ more ∧
      rest = more ++ rest' := by
    rcases List.append_eq_append_iff.mp hsplit with ⟨more, hmore, hrest⟩ | ⟨more, hmore, hrest⟩
    · exact ⟨more, hmore, hrest⟩
    · have hlength := congrArg List.length hmore
      simp only [List.length_append] at hlength
      omega
  cases more with
  | nil => simp [hmore] at hlonger
  | cons c more =>
    have hcontinued := h.spells.continuedBy_of_longer (hmore ▸ h'.spells)
    rw [h.longest c (by simp [hrest])] at hcontinued
    cases hcontinued

theorem unique (h : Munch lexeme chars rest) (h' : Munch lexeme' chars rest') :
    lexeme = lexeme' ∧ rest = rest' := by
  have hsplit : lexeme.chars ++ rest = lexeme'.chars ++ rest' := h.split.symm.trans h'.split
  have hlength := Nat.le_antisymm (h'.length_le h) (h.length_le h')
  obtain ⟨hchars, hrest⟩ := List.append_inj hsplit hlength
  have hkind : lexeme.kind = lexeme'.kind := by
    rw [h.spells.kind_eq, h'.spells.kind_eq, hchars]
  cases lexeme
  cases lexeme'
  exact ⟨by simp_all, hrest⟩

theorem takeWhile_isSeparator (h : Munch lexeme chars rest) :
    chars.takeWhile isSeparator = [] := by
  obtain ⟨c, others, hchars⟩ := List.exists_cons_of_ne_nil h.spells.nonempty
  have hc := h.spells.isSeparator_eq_false c (hchars ▸ List.mem_cons_self)
  rw [h.split, hchars, List.cons_append, List.takeWhile_cons_of_neg (by rw [hc]; decide)]

theorem exists_not_separator (h : Munch lexeme chars rest) :
    ∃ c ∈ chars, isSeparator c = false := by
  obtain ⟨c, others, hchars⟩ := List.exists_cons_of_ne_nil h.spells.nonempty
  have hc : c ∈ lexeme.chars := hchars ▸ List.mem_cons_self
  exact ⟨c, h.split ▸ List.mem_append_left rest hc, h.spells.isSeparator_eq_false c hc⟩

theorem separators_unique {chars' blanks blanks' : List Char} (h : Munch lexeme chars rest)
    (h' : Munch lexeme' chars' rest') (hblanks : ∀ c ∈ blanks, isSeparator c = true)
    (hblanks' : ∀ c ∈ blanks', isSeparator c = true)
    (hsplit : blanks ++ chars = blanks' ++ chars') : blanks = blanks' ∧ chars = chars' := by
  have hrun := congrArg (List.takeWhile isSeparator) hsplit
  rw [List.takeWhile_append_of_pos hblanks, List.takeWhile_append_of_pos hblanks',
    h.takeWhile_isSeparator, h'.takeWhile_isSeparator, List.append_nil, List.append_nil] at hrun
  exact ⟨hrun, List.append_inj_right hsplit (congrArg List.length hrun)⟩

end Munch

namespace Cursor

theorem pastAll_append (cursor : Cursor) (first second : List Char) :
    cursor.pastAll (first ++ second) = (cursor.pastAll first).pastAll second :=
  List.foldl_append ..

-- The cursor so many lines and characters further on.
def shifted (lines characters : Nat) (cursor : Cursor) : Cursor :=
  { cursor with line := cursor.line + lines, offset := cursor.offset + characters }

theorem shifted_pastAll (lines characters : Nat) (cursor : Cursor) (chars : List Char) :
    (cursor.pastAll chars).shifted lines characters =
      (cursor.shifted lines characters).pastAll chars := by
  induction chars generalizing cursor with
  | nil => rfl
  | cons c rest ih =>
    have hpast : (cursor.past c).shifted lines characters =
        (cursor.shifted lines characters).past c := by
      unfold past shifted
      split <;> simp only [mk.injEq, true_and] <;> omega
    exact (ih (cursor.past c)).trans (congrArg (pastAll · rest) hpast)

theorem line_pastAll (cursor : Cursor) (chars : List Char) :
    (cursor.pastAll chars).line = cursor.line + chars.count '\n' := by
  induction chars generalizing cursor with
  | nil => rfl
  | cons c rest ih =>
    have hrest : (cursor.pastAll (c :: rest)).line = _ := ih (cursor.past c)
    rw [hrest, List.count_cons]
    unfold past
    split
    · subst c
      simp only [beq_self_eq_true, if_true]
      omega
    · simp only [beq_iff_eq, ‹¬c = '\n'›, if_false, Nat.add_zero]

-- Behind a newline the column is that of the beginning again.
theorem pastAll_newline {cursor : Cursor} (h : cursor.column = 1) (chars : List Char) :
    cursor.pastAll (chars ++ ['\n']) =
      cursor.shifted ((chars ++ ['\n']).count '\n') (chars ++ ['\n']).length := by
  have hline := line_pastAll cursor (chars ++ ['\n'])
  have hoffset := offset_pastAll cursor (chars ++ ['\n'])
  have hcolumn : (cursor.pastAll (chars ++ ['\n'])).column = cursor.column := by
    rw [pastAll_append, h]
    rfl
  rw [shifted, ← hline, ← hoffset, ← hcolumn]

end Cursor

namespace Tiles

variable {file file' : String} {start : Cursor} {chars chars' blanks : List Char}
  {tokens tokens' : List Token} {eof eof' : Token}

-- Of no characters there are no tokens.
theorem nil (file : String) (start : Cursor) : Tiles file start [] [] (start.eof file) := by
  have hblanks : ∀ c ∈ ([] : List Char), isSeparator c = true := by simp
  exact .eof hblanks

-- A token with no separators before it.
theorem at_once {lexeme : Lexeme} {rest : List Char} (munch : Munch lexeme chars rest)
    (h : Tiles file (start.pastAll lexeme.chars) rest tokens eof) :
    Tiles file start chars (lexeme.token start file :: tokens) eof := by
  have hblanks : ∀ c ∈ ([] : List Char), isSeparator c = true := by simp
  exact .token hblanks munch h

theorem blank (hblanks : ∀ c ∈ blanks, isSeparator c = true)
    (h : Tiles file (start.pastAll blanks) chars tokens eof) :
    Tiles file start (blanks ++ chars) tokens eof := by
  cases h with
  | eof separators =>
    rw [← Cursor.pastAll_append]
    exact .eof (List.forall_mem_append.mpr ⟨hblanks, separators⟩)
  | @token _ more _ _ _ _ _ separators munch tiles =>
    rw [← Cursor.pastAll_append start blanks more] at tiles ⊢
    rw [← List.append_assoc]
    exact .token (List.forall_mem_append.mpr ⟨hblanks, separators⟩) munch tiles

-- A newline keeps the tokens of two texts apart.
theorem append (h : Tiles file start chars tokens eof)
    (h' : Tiles file (start.pastAll (chars ++ ['\n'])) chars' tokens' eof') :
    Tiles file start (chars ++ '\n' :: chars') (tokens ++ tokens') eof' := by
  induction h with
  | @eof start blanks separators =>
    rw [List.append_cons]
    exact blank (List.forall_mem_append.mpr ⟨separators, List.forall_mem_singleton.mpr rfl⟩) h'
  | @token start blanks chars rest lexeme tokens eof separators munch tiles ih =>
    -- no token goes on with a newline, so the last one of the first text ends where it did
    have hmunch : Munch lexeme (chars ++ '\n' :: chars') (rest ++ '\n' :: chars') := by
      rw [munch.split, List.append_assoc]
      refine munch.behind ?_
      cases rest with
      | nil => exact .inl (by rintro c ⟨⟩; rfl)
      | cons next others => exact .inr rfl
    rw [List.append_assoc]
    refine .token separators hmunch (ih ?_)
    rwa [← Cursor.pastAll_append, ← Cursor.pastAll_append, ← List.append_assoc,
      ← List.append_assoc, List.append_assoc blanks, ← munch.split]

theorem unique (h : Tiles file start chars tokens eof) (h' : Tiles file start chars tokens' eof') :
    tokens = tokens' ∧ eof = eof' := by
  induction h generalizing tokens' eof' with
  | @eof start blanks separators =>
    generalize hsplit : blanks = ahead at h'
    cases h' with
    | eof separators' =>
      subst hsplit
      exact ⟨rfl, rfl⟩
    | @token _ blanks' chars' _ _ _ _ separators' munch tiles =>
      have hall : ∀ c ∈ chars', isSeparator c = true := fun c hc =>
        separators c (hsplit ▸ List.mem_append_right blanks' hc)
      obtain ⟨c, hc, hseparator⟩ := munch.exists_not_separator
      rw [hall c hc] at hseparator
      cases hseparator
  | @token start blanks chars rest lexeme tokens eof separators munch tiles ih =>
    generalize hsplit : blanks ++ chars = ahead at h'
    cases h' with
    | eof separators' =>
      obtain ⟨c, hc, hseparator⟩ := munch.exists_not_separator
      rw [separators' c (hsplit ▸ List.mem_append_right blanks hc)] at hseparator
      cases hseparator
    | token separators' munch' tiles' =>
      obtain ⟨rfl, rfl⟩ := munch.separators_unique munch' separators separators' hsplit
      obtain ⟨rfl, rfl⟩ := munch.unique munch'
      obtain ⟨rfl, rfl⟩ := ih tiles'
      exact ⟨rfl, rfl⟩

-- A text that begins elsewhere, in another file, has the same tokens there.
theorem moved (shift : Cursor → Cursor) (move : Span → Span)
    (hshift : ∀ cursor chars, shift (Cursor.pastAll cursor chars) = (shift cursor).pastAll chars)
    (hmove : ∀ cursor length,
      move (Cursor.span cursor length file) = (shift cursor).span length file')
    (h : Tiles file start chars tokens eof) :
    Tiles file' (shift start) chars (tokens.map (Token.moved move)) (eof.moved move) := by
  induction h with
  | @eof start blanks separators =>
    have heof : ((start.pastAll blanks).eof file).moved move =
        ((shift start).pastAll blanks).eof file' := by
      rw [Token.moved_of_kind move (by simp [Cursor.eof]), ← hshift]
      simp only [Cursor.eof, hmove]
    rw [heof]
    exact .eof separators
  | @token start blanks chars rest lexeme tokens eof separators munch tiles ih =>
    have htoken : (lexeme.token (start.pastAll blanks) file).moved move =
        lexeme.token ((shift start).pastAll blanks) file' := by
      rw [Token.moved_of_kind move munch.spells.kind_ne.2, ← hshift]
      simp only [Lexeme.token, hmove]
    rw [List.map_cons, htoken]
    rw [hshift, hshift] at ih
    exact .token separators munch ih

theorem length_span (h : Tiles file start chars tokens eof) :
    ∀ token ∈ tokens ++ [eof], token.span.length = token.lexeme.length := by
  induction h with
  | eof separators =>
    rw [List.nil_append, List.forall_mem_singleton]
    rfl
  | @token start blanks chars rest lexeme tokens eof separators munch tiles ih =>
    rw [List.cons_append, List.forall_mem_cons]
    refine ⟨?_, ih⟩
    rw [munch.spells.lexeme_token, Lexeme.span_token, Cursor.length_span, String.length_ofList]

end Tiles

namespace Lexer

theorem drain_of_tiles (lexer : Lexer) {tokens : List Token} {eof : Token}
    (h : lexer.lookahead = none)
    (htiles : Tiles lexer.file lexer.cursor lexer.source.visible tokens eof) :
    lexer.drain.tokens = tokens ∧ lexer.drain.eof = eof :=
  (drain_tiles lexer h).unique htiles

theorem length_span_tokenize (source : Source) (file : String) :
    ∀ token ∈ ({ source, file } : Lexer).tokenize.1, token.span.length = token.lexeme.length :=
  (drain_tiles { source, file } rfl).length_span

theorem kind_ne_empty (source : Source) (file : String) :
    ∀ token ∈ ({ source, file } : Lexer).drain.tokens, token.kind ≠ .empty := fun token htoken =>
  ((drain_tiles { source, file } rfl).kind_ne token htoken).2

end Lexer

end Calculator
