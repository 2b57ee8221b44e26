import Calculator.Lexer

namespace Calculator

namespace Kind

-- The kinds with one spelling that is no word.
def isOperator : Kind → Bool
  | period | plus | minus | star | slash | less | lessEqual | greater | greaterEqual
  | equalEqual | leftParen | rightParen | equals => true
  | _ => false

def isWord : Kind → Bool
  | letWord | ifWord | thenWord | elseWord | endWord | identifier => true
  | _ => false

-- Whether a token of a kind would be longer if `c` came behind it.
def continuedBy (kind : Kind) (c : Char) : Bool :=
  match kind with
  | number => c.isDigit
  | equals | less | greater => c = '='
  | kind => kind.isWord && continuesName c

end Kind

inductive Spells : Kind → List Char → Prop where
  | number {digits : List Char} (nonempty : digits ≠ [])
      (digit : ∀ c ∈ digits, c.isDigit = true) : Spells .number digits
  | keyword {kind : Kind} {chars : List Char}
      (known : (String.ofList chars, kind) ∈ Kind.keywords) : Spells kind chars
  | identifier {c : Char} {rest : List Char} (starts : startsName c = true)
      (continues : ∀ d ∈ rest, continuesName d = true)
      (unknown : ∀ kind, (String.ofList (c :: rest), kind) ∉ Kind.keywords) :
      Spells .identifier (c :: rest)
  | operator {kind : Kind} {chars : List Char} (operator : kind.isOperator = true)
      (spelled : kind.spelling? = some (String.ofList chars)) : Spells kind chars
  -- any other character that separates no tokens
  | invalid {c : Char} (noDigit : c.isDigit = false) (noName : startsName c = false)
      (noSeparator : isSeparator c = false)
      (noOperator : ∀ kind : Kind, kind.spelling? ≠ some (String.ofList [c])) :
      Spells .invalid [c]

theorem startsName_of_isDigit {c : Char} (h : c.isDigit = true) : startsName c = false := by
  simp only [Char.isDigit, Bool.and_eq_true, decide_eq_true_eq] at h
  have hupper : c.toNat ≤ 0x39 := h.2
  have hascii : Text.isAscii c = true := by
    simp only [Text.isAscii, decide_eq_true_eq]
    omega
  have halpha : c.isAlpha = false := by
    rw [Bool.eq_false_iff]
    intro halpha
    rcases Bool.or_eq_true_iff.mp halpha with hcapital | hsmall
    · have hbound : 'A'.val ≤ c.val := (of_decide_eq_true hcapital).1
      exact absurd (UInt32.le_trans hbound h.2) (by decide)
    · have hbound : 'a'.val ≤ c.val := of_decide_eq_true (Bool.and_eq_true_iff.mp hsmall).1
      exact absurd (UInt32.le_trans hbound h.2) (by decide)
  have hline : c ≠ '_' := by
    rintro rfl
    exact absurd h.2 (by decide)
  simp [startsName, Text.isLetter, hascii, halpha, hline]

theorem isDigit_of_startsName {c : Char} (h : startsName c = true) : c.isDigit = false := by
  rw [Bool.eq_false_iff]
  intro hdigit
  rw [startsName_of_isDigit hdigit] at h
  exact Bool.noConfusion h

theorem continuesName_of_startsName {c : Char} (h : startsName c = true) :
    continuesName c = true := by
  rcases Bool.or_eq_true _ _ ▸ h with hletter | hline
  · simp [continuesName, Text.isAlphanumeric_of_isLetter hletter]
  · simp [continuesName, hline]

namespace Kind

theorem ofWord_of_mem {word : String} {kind : Kind} (h : (word, kind) ∈ keywords) :
    ofWord word = kind := by
  simp only [keywords, List.mem_cons, Prod.mk.injEq, List.not_mem_nil, or_false] at h
  rcases h with ⟨rfl, rfl⟩ | ⟨rfl, rfl⟩ | ⟨rfl, rfl⟩ | ⟨rfl, rfl⟩ | ⟨rfl, rfl⟩ <;> decide

theorem ofWord_of_not_mem {word : String} (h : ∀ kind, (word, kind) ∉ keywords) :
    ofWord word = identifier := by
  have hnone : keywords.lookup word = none := by
    rw [List.lookup_eq_none_iff]
    intro entry hentry
    simp only [bne_iff_ne, ne_eq]
    intro heq
    exact h entry.2 (heq ▸ hentry)
  simp [ofWord, hnone]

theorem word_of_mem_keywords {chars : List Char} {kind : Kind}
    (h : (String.ofList chars, kind) ∈ keywords) :
    kind.isWord = true ∧ ∃ c rest, chars = c :: rest ∧ startsName c = true ∧
      ∀ d ∈ rest, continuesName d = true := by
  have hchars : chars = (String.ofList chars).toList := String.toList_ofList.symm
  simp only [keywords, List.mem_cons, Prod.mk.injEq, List.not_mem_nil, or_false] at h
  rcases h with ⟨h, rfl⟩ | ⟨h, rfl⟩ | ⟨h, rfl⟩ | ⟨h, rfl⟩ | ⟨h, rfl⟩ <;>
    (rw [h] at hchars
     exact ⟨rfl, _, _, hchars, by decide, List.all_eq_true.mp (by decide)⟩)

-- The kind that characters dictate: by the first of them, then by all of them.
def ofChars : List Char → Kind
  | [] => empty
  | c :: rest =>
    if c.isDigit then number
    else if startsName c then ofWord (String.ofList (c :: rest))
    else (all.find? fun kind => kind.spelling? = some (String.ofList (c :: rest))).getD invalid

-- An operator has one character or two, neither of which begins a word or separates tokens.
theorem chars_of_spelling {chars : List Char} {kind : Kind} (ho : kind.isOperator = true)
    (hs : kind.spelling? = some (String.ofList chars)) :
    ofChars chars = kind ∧ chars ≠ [] ∧ ∀ c ∈ chars, isSeparator c = false := by
  have hchars : chars = (String.ofList chars).toList := String.toList_ofList.symm
  cases kind <;> simp only [isOperator, Bool.false_eq_true] at ho <;>
    (simp only [spelling?, Option.some.injEq] at hs
     rw [← hs] at hchars
     subst hchars
     refine ⟨by decide, by decide, fun c hc => Bool.eq_false_iff.mpr ?_⟩
     exact List.any_eq_false.mp (by decide) c hc)

end Kind

namespace Spells

theorem kind_eq {kind : Kind} {chars : List Char} (h : Spells kind chars) :
    kind = Kind.ofChars chars := by
  cases h with
  | number nonempty digit =>
    obtain ⟨c, rest, rfl⟩ := List.exists_cons_of_ne_nil nonempty
    simp [Kind.ofChars, digit c List.mem_cons_self]
  | keyword known =>
    obtain ⟨_, c, rest, rfl, hstart, _⟩ := Kind.word_of_mem_keywords known
    have hdigit := isDigit_of_startsName hstart
    simp only [Kind.ofChars, hdigit, hstart, Bool.false_eq_true, ite_true, ite_false,
      Kind.ofWord_of_mem known]
  | @identifier c rest starts continues unknown =>
    have hdigit := isDigit_of_startsName starts
    simp only [Kind.ofChars, hdigit, starts, Bool.false_eq_true, ite_true, ite_false,
      Kind.ofWord_of_not_mem unknown]
  | operator operator spelled => exact (Kind.chars_of_spelling operator spelled).1.symm
  | @invalid c noDigit noName noSeparator noOperator =>
    have hnone : (Kind.all.find? fun kind => kind.spelling? = some (String.ofList [c])) = none := by
      rw [List.find?_eq_none]
      intro kind _
      simpa using noOperator kind
    simp only [Kind.ofChars, noDigit, noName, Bool.false_eq_true, ite_false, hnone,
      Option.getD_none]

theorem nonempty {kind : Kind} {chars : List Char} (h : Spells kind chars) : chars ≠ [] := by
  cases h with
  | number nonempty digit => exact nonempty
  | keyword known =>
    obtain ⟨_, c, rest, rfl, _⟩ := Kind.word_of_mem_keywords known
    simp
  | identifier starts continues unknown => simp
  | operator operator spelled => exact (Kind.chars_of_spelling operator spelled).2.1
  | invalid => simp

theorem kind_ne {kind : Kind} {chars : List Char} (h : Spells kind chars) :
    kind ≠ .eof ∧ kind ≠ .empty := by
  cases h with
  | number nonempty digit => decide
  | keyword known =>
    have hword := (Kind.word_of_mem_keywords known).1
    constructor <;> (rintro rfl; simp [Kind.isWord] at hword)
  | identifier starts continues unknown => decide
  | operator operator spelled => constructor <;> (rintro rfl; simp [Kind.isOperator] at operator)
  | invalid => decide

end Spells

-- The token with which characters begin: it spells its kind, and what is left cannot prolong it.
structure Munch (lexeme : Lexeme) (chars rest : List Char) : Prop where
  spells : Spells lexeme.kind lexeme.chars
  split : chars = lexeme.chars ++ rest
  longest : ∀ c ∈ rest.head?, lexeme.kind.continuedBy c = false

theorem head?_dropWhile_eq_false {p : Char → Bool} {chars : List Char} {c : Char}
    (h : c ∈ (chars.dropWhile p).head?) : p c = false := by
  have hstop := List.head?_dropWhile_not p chars
  rw [Option.mem_def.mp h] at hstop
  exact hstop

theorem mem_takeWhile {p : Char → Bool} {chars : List Char} {c : Char}
    (h : c ∈ chars.takeWhile p) : p c = true :=
  List.all_eq_true.mp List.all_takeWhile c h

theorem munch_takeWhile {kind : Kind} {p : Char → Bool} (source : Source)
    (hs : Spells kind (source.visible.takeWhile p))
    (hp : ∀ c, kind.continuedBy c = true → p c = true) :
    Munch ⟨kind, (source.takeWhile p).1⟩ source.visible (source.takeWhile p).2.visible := by
  rw [Source.takeWhile_fst, Source.visible_takeWhile]
  refine ⟨hs, List.takeWhile_append_dropWhile.symm, fun c hc => ?_⟩
  rw [Bool.eq_false_iff]
  intro hcontinued
  have hstop := head?_dropWhile_eq_false hc
  rw [hp c hcontinued] at hstop
  exact Bool.noConfusion hstop

theorem spells_ofWord {c : Char} {rest : List Char} (hs : startsName c = true)
    (hr : ∀ d ∈ rest, continuesName d = true) :
    Spells (.ofWord (String.ofList (c :: rest))) (c :: rest) := by
  by_cases hknown : ∃ kind, (String.ofList (c :: rest), kind) ∈ Kind.keywords
  · obtain ⟨kind, hkind⟩ := hknown
    rw [Kind.ofWord_of_mem hkind]
    exact .keyword hkind
  · have hunknown : ∀ kind, (String.ofList (c :: rest), kind) ∉ Kind.keywords :=
      fun kind hkind => hknown ⟨kind, hkind⟩
    rw [Kind.ofWord_of_not_mem hunknown]
    exact .identifier hs hr hunknown

namespace Kind

theorem isWord_ofWord (word : String) : (ofWord word).isWord = true := by
  by_cases hknown : ∃ kind, (word, kind) ∈ keywords
  · obtain ⟨kind, hkind⟩ := hknown
    have hchars : (String.ofList word.toList, kind) ∈ keywords := by rwa [String.ofList_toList]
    rw [ofWord_of_mem hkind]
    exact (word_of_mem_keywords hchars).1
  · rw [ofWord_of_not_mem fun kind hkind => hknown ⟨kind, hkind⟩]
    rfl

theorem continuedBy_of_isWord {kind : Kind} (h : kind.isWord = true) (c : Char) :
    kind.continuedBy c = continuesName c := by
  cases kind <;> simp_all [isWord, continuedBy]

end Kind

theorem withEquals?_eq_some {c : Char} {alone doubled : Kind}
    (h : withEquals? c = some (alone, doubled)) :
    Spells alone [c] ∧ Spells doubled [c, '='] ∧
      ∀ d, alone.continuedBy d = (d == '=') ∧ doubled.continuedBy d = false := by
  unfold withEquals? at h
  split at h <;> simp only [Option.some.injEq, Prod.mk.injEq, reduceCtorEq] at h
  all_goals
    obtain ⟨rfl, rfl⟩ := h
    exact ⟨.operator rfl (by decide), .operator rfl (by decide), fun d => ⟨rfl, rfl⟩⟩

theorem spells_ofSingle {c : Char} (hdigit : c.isDigit = false) (hname : startsName c = false)
    (hseparator : isSeparator c = false) (hequals : withEquals? c = none) :
    Spells (.ofSingle c) [c] ∧ ∀ d, (Kind.ofSingle c).continuedBy d = false := by
  unfold Kind.ofSingle
  split
  case h_8 =>
    refine ⟨.invalid hdigit hname hseparator fun kind hkind => ?_, fun d => rfl⟩
    have hchars := congrArg (Option.map String.toList) hkind
    simp only [Option.map_some, String.toList_ofList] at hchars
    cases kind <;> simp [Kind.spelling?] at hchars <;> subst hchars <;>
      contradiction
  all_goals exact ⟨.operator rfl (by decide), fun d => rfl⟩

theorem Source.takeLexeme_munch {source : Source} {c : Char} (h : source.peek.1 = some c)
    (hseparator : isSeparator c = false) :
    Munch (source.takeLexeme c).1 source.visible (source.takeLexeme c).2.visible := by
  have hvisible := Source.visible_read_of_peek h
  unfold Source.takeLexeme
  split
  · rename_i hdigit
    refine munch_takeWhile source (.number ?_ ?_) fun d hd => hd
    · rw [hvisible, List.takeWhile_cons_of_pos hdigit]
      simp
    · exact fun d hd => mem_takeWhile hd
  split
  · rename_i hname
    have hrun : source.visible.takeWhile continuesName =
        c :: source.read.2.visible.takeWhile continuesName := by
      rw [hvisible, List.takeWhile_cons_of_pos (continuesName_of_startsName hname)]
    dsimp only
    have hword := Kind.isWord_ofWord (String.ofList (source.takeWhile continuesName).1)
    refine munch_takeWhile source ?_ fun d hd => Kind.continuedBy_of_isWord hword d ▸ hd
    rw [Source.takeWhile_fst, hrun]
    exact spells_ofWord hname fun d hd => mem_takeWhile hd
  · rename_i hdigit hname
    have hdigit := Bool.eq_false_iff.mpr hdigit
    have hname := Bool.eq_false_iff.mpr hname
    dsimp only
    split
    · rename_i alone doubled hequals
      obtain ⟨halone, hdoubled, hcontinued⟩ := withEquals?_eq_some hequals
      split
      · rename_i hnext
        refine ⟨hdoubled, ?_, fun d _ => (hcontinued d).2⟩
        rw [hvisible, Source.visible_read_of_peek hnext]
        rfl
      · rename_i hnext
        refine ⟨halone, by rw [hvisible, Source.visible_peek]; rfl, fun d hd => ?_⟩
        rw [(hcontinued d).1, beq_eq_false_iff_ne]
        rintro rfl
        rw [Source.visible_peek, ← Source.peek_fst] at hd
        exact hnext hd
    · rename_i hequals
      obtain ⟨hsingle, hcontinued⟩ := spells_ofSingle hdigit hname hseparator hequals
      exact ⟨hsingle, hvisible, fun d _ => hcontinued d⟩

end Calculator
