import Calculator.Evaluation
import Calculator.Proofs.Lexing.Growth
import Calculator.Proofs.Lexing.Partition

namespace Calculator

-- The position right behind a token, which never goes on to another line.
def Cursor.Behind (cursor : Cursor) (token : Token) : Prop :=
  cursor.line = token.span.line ∧ cursor.column = token.span.column + token.span.length ∧
    cursor.offset = token.span.stop

theorem Cuts.behind {file : String} {start after : Cursor} {chars rest : List Char} {token : Token}
    (h : Cuts file start chars token after rest) : after.Behind token := by
  cases h with
  | eof separators =>
    exact ⟨rfl, by simp [Cursor.eof, Cursor.span], by simp [Cursor.eof, Cursor.span, Span.stop]⟩
  | @token blanks chars rest lexeme separators munch =>
    rw [Cursor.pastAll_of_line _ _ munch.spells.ne_newline]
    exact ⟨rfl, rfl, rfl⟩

theorem Cuts.of_nil {file : String} {start after : Cursor} {rest : List Char} {token : Token}
    (h : Cuts file start [] token after rest) :
    token = start.eof file ∧ after = start ∧ rest = [] := by
  generalize hchars : ([] : List Char) = chars at h
  cases h with
  | eof separators =>
    subst hchars
    exact ⟨rfl, rfl, rfl⟩
  | token separators munch =>
    have hempty := munch.split
    obtain ⟨_, rfl⟩ := List.append_eq_nil_iff.mp hchars.symm
    exact absurd (List.append_eq_nil_iff.mp hempty.symm).1 munch.spells.nonempty

theorem Cuts.of_end {file : String} {start after : Cursor} {chars rest : List Char} {token : Token}
    (h : Cuts file start chars token after rest) (hend : token.kind = .eof) :
    token = after.eof file ∧ rest = [] := by
  cases h with
  | eof separators => exact ⟨rfl, rfl⟩
  | token separators munch => exact absurd hend munch.spells.kind_ne.1

namespace Lexer

-- What can be asked of a lexer, and the growth of its stream.
inductive Request where
  | peek
  | read
  | isAtEnd
  | tokenize
  | append (added : List Char)

namespace Request

def added : Request → List Char
  | append added => added
  | _ => []

def isAppend : Request → Bool
  | append _ => true
  | _ => false

def handsOut : Request → Bool
  | read | tokenize => true
  | _ => false

end Request

-- The tokens that a request hands out, and the lexer after it.
def serve (lexer : Lexer) : Request → List Token × Lexer
  | .peek => ([], lexer.peek.2)
  | .read => ([lexer.read.1], lexer.read.2)
  | .isAtEnd => ([], lexer.isAtEnd.2)
  | .tokenize => lexer.tokenize
  | .append added => ([], lexer.append added)

def serveAll (lexer : Lexer) : List Request → List Token × Lexer
  | [] => ([], lexer)
  | request :: rest =>
    let served := lexer.serve request
    let others := served.2.serveAll rest
    (served.1 ++ others.1, others.2)

-- The text that comes before the stream first says that there is no more.
def toCome (lexer : Lexer) : List Request → List Char
  | [] => []
  | request :: rest =>
    let next := (lexer.serve request).2
    request.added ++ if next.source.sawEnd then [] else next.toCome rest

-- The last token that a request looked at.
def shown (lexer : Lexer) : Request → Option Token
  | .peek | .isAtEnd => some lexer.peek.1
  | .read => some lexer.read.1
  | .tokenize => some lexer.drain.eof
  | .append _ => none

theorem peek_fixed (lexer : Lexer) : lexer.fixed.peek = (lexer.peek.1, lexer.peek.2.fixed) :=
  peek_mapSource fun _ => lexer.scan_fixed

theorem read_fixed (lexer : Lexer) : lexer.fixed.read = (lexer.read.1, lexer.read.2.fixed) :=
  read_mapSource fun _ => lexer.scan_fixed

theorem drain_fixed (lexer : Lexer) :
    lexer.fixed.drain = ⟨lexer.drain.tokens, lexer.drain.eof, lexer.drain.lexer.fixed⟩ := by
  have hread := lexer.read_fixed
  by_cases hend : lexer.read.1.kind = .eof
  · rw [drain_of_end (by rw [hread]; exact hend), drain_of_end hend, hread]
  · have hrest := lexer.read.2.drain_fixed
    rw [drain_of_next (by rw [hread]; exact hend), drain_of_next hend, hread]
    simp only [hrest]
termination_by lexer.size
decreasing_by exact lexer.size_read_lt hend

theorem serve_fixed (lexer : Lexer) (request : Request) (h : request.isAppend = false) :
    lexer.fixed.serve request = ((lexer.serve request).1, (lexer.serve request).2.fixed) := by
  cases request with
  | peek => simp only [serve, peek_fixed]
  | read => simp only [serve, read_fixed]
  | isAtEnd => simp only [serve, isAtEnd, peek_fixed]
  | tokenize => simp only [serve, tokenize, drain_fixed]
  | append added => simp [Request.isAppend] at h

theorem peek_append {lexer : Lexer} (h : lexer.peek.2.source.sawEnd = false) (added : List Char) :
    (lexer.append added).peek = (lexer.peek.1, lexer.peek.2.append added) := by
  refine peek_mapSource fun hl => scan_append ?_ added
  simpa only [peek, hl] using h

theorem read_append {lexer : Lexer} (h : lexer.read.2.source.sawEnd = false) (added : List Char) :
    (lexer.append added).read = (lexer.read.1, lexer.read.2.append added) := by
  refine read_mapSource fun hl => scan_append ?_ added
  simpa only [read, hl] using h

theorem sawEnd_peek {lexer : Lexer} (h : lexer.source.sawEnd = true) :
    lexer.peek.2.source.sawEnd = true := by
  unfold peek
  cases hl : lexer.lookahead with
  | none => simpa only [scan_of_sawEnd h] using h
  | some token => exact h

theorem sawEnd_read {lexer : Lexer} (h : lexer.source.sawEnd = true) :
    lexer.read.2.source.sawEnd = true := by
  unfold read
  cases hl : lexer.lookahead with
  | none => simpa only [scan_of_sawEnd h] using h
  | some token => exact h

theorem sawEnd_drain {lexer : Lexer} (h : lexer.source.sawEnd = true) :
    lexer.drain.lexer.source.sawEnd = true := by
  have hread := sawEnd_read h
  by_cases hend : lexer.read.1.kind = .eof
  · rwa [drain_of_end hend]
  · rw [drain_of_next hend]
    exact sawEnd_drain hread
termination_by lexer.size
decreasing_by exact lexer.size_read_lt hend

theorem sawEnd_serve {lexer : Lexer} (h : lexer.source.sawEnd = true) (request : Request) :
    (lexer.serve request).2.source.sawEnd = true := by
  cases request with
  | peek => exact sawEnd_peek h
  | read => exact sawEnd_read h
  | isAtEnd => exact sawEnd_peek h
  | tokenize => exact sawEnd_drain h
  | append added => exact (Source.sawEnd_append _ _).trans h

theorem drain_append {lexer : Lexer} (h : lexer.drain.lexer.source.sawEnd = false)
    (added : List Char) : (lexer.append added).drain =
      ⟨lexer.drain.tokens, lexer.drain.eof, lexer.drain.lexer.append added⟩ := by
  have hfirst : lexer.read.2.source.sawEnd = false := by
    cases hsaw : lexer.read.2.source.sawEnd with
    | false => rfl
    | true =>
      by_cases hend : lexer.read.1.kind = .eof
      · rw [drain_of_end hend] at h
        simp [hsaw] at h
      · rw [drain_of_next hend] at h
        simp [sawEnd_drain hsaw] at h
  have hread := read_append hfirst added
  by_cases hend : lexer.read.1.kind = .eof
  · rw [drain_of_end (by rw [hread]; exact hend), drain_of_end hend, hread]
  · rw [drain_of_next hend] at h
    have hrest := drain_append h added
    rw [drain_of_next (by rw [hread]; exact hend), drain_of_next hend, hread]
    simp only [hrest]
termination_by lexer.size
decreasing_by exact lexer.size_read_lt hend

theorem serve_append {lexer : Lexer} {request : Request} (hr : request.isAppend = false)
    (h : (lexer.serve request).2.source.sawEnd = false) (added : List Char) :
    (lexer.append added).serve request =
      ((lexer.serve request).1, (lexer.serve request).2.append added) := by
  cases request with
  | peek => simp only [serve] at h ⊢; rw [peek_append h]
  | read => simp only [serve] at h ⊢; rw [read_append h]
  | isAtEnd => simp only [serve, isAtEnd] at h ⊢; rw [peek_append h]
  | tokenize => simp only [serve, tokenize] at h ⊢; rw [drain_append h]
  | append added => simp [Request.isAppend] at hr

-- The lexer as it would go on if `added` came now and no text ever after it.
def fill (lexer : Lexer) (added : List Char) : Lexer := (lexer.append added).fixed

theorem fill_nil (lexer : Lexer) : lexer.fill [] = lexer.fixed := by
  simp [fill, append, Source.append_nil]

theorem fill_of_sawEnd {lexer : Lexer} (h : lexer.source.sawEnd = true) (added : List Char) :
    lexer.fill added = { lexer with source := .text [] } := by
  have hgrown : (lexer.source.append added).visible = [] := by
    rw [Source.visible_of_sawEnd]
    rwa [Source.sawEnd_append]
  simp [fill, fixed, mapSource, append, Source.fixed, hgrown]

-- Once the stream said that there is no more, text that comes later is never handed out.
theorem serve_append_of_sawEnd {lexer : Lexer} (h : lexer.source.sawEnd = true)
    (added : List Char) (request : Request) :
    ((lexer.append added).serve request).1 = (lexer.serve request).1 := by
  cases happend : request.isAppend with
  | true => cases request <;> first | rfl | simp [Request.isAppend] at happend
  | false =>
    have hsame : (lexer.append added).fixed = lexer.fixed := by
      have hfill := (fill_of_sawEnd h added).trans (fill_of_sawEnd h []).symm
      rwa [fill, fill_nil] at hfill
    have hgrown := serve_fixed (lexer.append added) request happend
    rw [hsame, serve_fixed lexer request happend] at hgrown
    exact (congrArg Prod.fst hgrown).symm

-- One request and what is to come after it, seen on the text that will have come.
theorem serve_fill (lexer : Lexer) {request : Request} (h : request.isAppend = false)
    (rest : List Request) :
    (lexer.fill (lexer.toCome (request :: rest))).serve request =
      ((lexer.serve request).1, (lexer.serve request).2.fill
        ((lexer.serve request).2.toCome rest)) := by
  have hadded : request.added = [] := by
    cases request <;> simp_all [Request.isAppend, Request.added]
  simp only [toCome, hadded, List.nil_append]
  cases hsaw : (lexer.serve request).2.source.sawEnd with
  | false =>
    simp only [Bool.false_eq_true, ite_false]
    rw [fill, serve_fixed _ _ h, serve_append h hsaw]
    rfl
  | true =>
    simp only [ite_true]
    rw [fill_nil, serve_fixed _ _ h, fill_of_sawEnd hsaw]
    simp [fixed, mapSource, Source.fixed, Source.visible_of_sawEnd hsaw]

theorem append_append (lexer : Lexer) (first second : List Char) :
    (lexer.append first).append second = lexer.append (first ++ second) := by
  simp [append, Source.append_append]

theorem fill_append (lexer : Lexer) (added : List Char) (rest : List Request) :
    lexer.fill (lexer.toCome (.append added :: rest)) =
      (lexer.append added).fill ((lexer.append added).toCome rest) := by
  cases hsaw : (lexer.append added).source.sawEnd with
  | false =>
    simp only [toCome, Request.added, serve, hsaw, Bool.false_eq_true, ite_false]
    rw [fill, fill, append_append]
  | true =>
    have hbefore : lexer.source.sawEnd = true := by rwa [append, Source.sawEnd_append] at hsaw
    rw [fill_of_sawEnd hsaw, fill_of_sawEnd hbefore]
    rfl

-- All requests on a stream hand out what they would on the text that the stream had given when it
-- first said that there is no more, and leave a lexer that stands where it would.
theorem serveAll_fill_eq (lexer : Lexer) (requests : List Request) :
    (lexer.fill (lexer.toCome requests)).serveAll
        (requests.filter fun request => !request.isAppend) =
      ((lexer.serveAll requests).1, (lexer.serveAll requests).2.fixed) := by
  induction requests generalizing lexer with
  | nil => exact congrArg (Prod.mk []) lexer.fill_nil
  | cons request rest ih =>
    cases happend : request.isAppend with
    | true =>
      obtain ⟨added, rfl⟩ : ∃ added, request = .append added := by
        cases request <;> simp_all [Request.isAppend]
      rw [List.filter_cons_of_neg (by simp [happend]), fill_append, ih]
      simp [serveAll, serve]
    | false =>
      rw [List.filter_cons_of_pos (by simp [happend])]
      simp only [serveAll]
      rw [serve_fill lexer happend rest, ih]

theorem serveAll_fill (lexer : Lexer) (requests : List Request) :
    (lexer.serveAll requests).1 =
      ((lexer.fill (lexer.toCome requests)).serveAll
        (requests.filter fun request => !request.isAppend)).1 :=
  (congrArg Prod.fst (lexer.serveAll_fill_eq requests)).symm

-- The lexer stands at the end of its text, which waits as lookahead or comes next.
structure Ended (lexer : Lexer) (eof : Token) : Prop where
  eof_eq : eof = lexer.cursor.eof lexer.file
  nothing : lexer.source.visible = []
  lookahead : lexer.lookahead = none ∨ lexer.lookahead = some eof

-- Only the end of the text waits as lookahead at the end of the text.
def Consistent (lexer : Lexer) : Prop :=
  ∀ token, lexer.lookahead = some token → token.kind = .eof → lexer.Ended token

theorem Ended.read {lexer : Lexer} {eof : Token} (h : lexer.Ended eof) :
    lexer.read.1 = eof ∧ lexer.read.2.Ended eof := by
  obtain ⟨heof, hnothing, hlookahead⟩ := h
  have hcuts := lexer.scan_cuts
  rw [hnothing] at hcuts
  obtain ⟨htoken, hcursor, hrest⟩ := hcuts.of_nil
  rcases hlookahead with hl | hl
  · rw [read_of_none hl, htoken, heof]
    exact ⟨rfl, by rw [hcursor, file_scan], hrest, .inl (lexer.lookahead_scan.trans hl)⟩
  · simp only [Lexer.read, hl]
    exact ⟨trivial, heof, hnothing, .inl rfl⟩

theorem Ended.drain {lexer : Lexer} {eof : Token} (h : lexer.Ended eof) :
    lexer.drain = ⟨[], eof, lexer.read.2⟩ := by
  have hread := h.read.1
  have hkind : lexer.read.1.kind = .eof := by rw [hread, h.eof_eq]; rfl
  rw [drain_of_end hkind, hread]

theorem peek_fst (lexer : Lexer) : lexer.peek.1 = lexer.read.1 := by
  unfold peek read
  cases lexer.lookahead <;> rfl

theorem read_peek (lexer : Lexer) : lexer.peek.2.read = lexer.read := by
  cases hl : lexer.lookahead with
  | none =>
    have hnone := lexer.lookahead_scan.trans hl
    have hpeek : lexer.peek.2 = { lexer.scan.2 with lookahead := some lexer.scan.1 } := by
      simp only [peek, hl]
    rw [hpeek, read_of_none hl]
    simp only [read]
    rw [← hnone]
  | some token => simp only [peek, hl]

theorem drain_peek (lexer : Lexer) : lexer.peek.2.drain = lexer.drain := by
  have hread := lexer.read_peek
  by_cases hend : lexer.read.1.kind = .eof
  · rw [drain_of_end (by rw [hread]; exact hend), drain_of_end hend, hread]
  · rw [drain_of_next (by rw [hread]; exact hend), drain_of_next hend, hread]

theorem Consistent.peek {lexer : Lexer} (h : lexer.Consistent) : lexer.peek.2.Consistent := by
  cases hl : lexer.lookahead with
  | none =>
    simp only [Lexer.peek, hl]
    rintro token ⟨⟩ hkind
    obtain ⟨htoken, hrest⟩ := lexer.scan_cuts.of_end hkind
    exact ⟨by rw [file_scan]; exact htoken, hrest, .inr rfl⟩
  | some token =>
    simp only [Lexer.peek, hl]
    exact h

theorem Consistent.read {lexer : Lexer} (h : lexer.Consistent) :
    lexer.read.2.Consistent ∧ (lexer.read.1.kind = .eof → lexer.read.2.Ended lexer.read.1) := by
  cases hl : lexer.lookahead with
  | none =>
    have hnone := lexer.lookahead_scan.trans hl
    rw [read_of_none hl]
    refine ⟨fun token htoken => by simp [hnone] at htoken, fun hkind => ?_⟩
    obtain ⟨htoken, hrest⟩ := lexer.scan_cuts.of_end hkind
    exact ⟨by rw [file_scan]; exact htoken, hrest, .inl hnone⟩
  | some token =>
    simp only [Lexer.read, hl]
    refine ⟨fun other hother => by simp at hother, fun hkind => ?_⟩
    obtain ⟨heof, hnothing, _⟩ := h token hl hkind
    exact ⟨heof, hnothing, .inl rfl⟩

theorem Consistent.drain {lexer : Lexer} (h : lexer.Consistent) :
    lexer.drain.lexer.Consistent ∧ lexer.drain.lexer.Ended lexer.drain.eof := by
  obtain ⟨hconsistent, hended⟩ := h.read
  by_cases hend : lexer.read.1.kind = .eof
  · rw [drain_of_end hend]
    exact ⟨hconsistent, hended hend⟩
  · rw [drain_of_next hend]
    exact hconsistent.drain
termination_by lexer.size
decreasing_by exact lexer.size_read_lt hend

-- On a text that does not grow the tokens come in order, and then the end again and again.
theorem serveAll_handed {lexer : Lexer} (h : lexer.Consistent) (requests : List Request)
    (hr : ∀ request ∈ requests, request.isAppend = false) :
    ∃ count, (lexer.serveAll requests).1 <+:
      lexer.drain.tokens ++ List.replicate count lexer.drain.eof := by
  induction requests generalizing lexer with
  | nil => exact ⟨0, List.nil_prefix⟩
  | cons request rest ih =>
    have hrest : ∀ request ∈ rest, request.isAppend = false :=
      fun other hother => hr other (List.mem_cons_of_mem _ hother)
    have hpeek : ∃ count, (lexer.peek.2.serveAll rest).1 <+:
        lexer.drain.tokens ++ List.replicate count lexer.drain.eof := by
      rw [← drain_peek]
      exact ih h.peek hrest
    cases request with
    | peek => exact hpeek
    | isAtEnd => exact hpeek
    | append added => simpa [Request.isAppend] using hr _ List.mem_cons_self
    | read =>
      obtain ⟨hconsistent, hended⟩ := h.read
      obtain ⟨count, hprefix⟩ := ih hconsistent hrest
      simp only [serveAll, serve]
      by_cases hend : lexer.read.1.kind = .eof
      · refine ⟨count + 1, ?_⟩
        rw [(hended hend).drain] at hprefix
        rw [drain_of_end hend]
        simpa [List.replicate_succ] using hprefix
      · refine ⟨count, ?_⟩
        rw [drain_of_next hend]
        simpa using hprefix
    | tokenize =>
      obtain ⟨hconsistent, hended⟩ := h.drain
      obtain ⟨count, hprefix⟩ := ih hconsistent hrest
      rw [hended.drain] at hprefix
      refine ⟨count + 1, ?_⟩
      simp only [serveAll, serve, tokenize]
      simpa [List.replicate_succ] using hprefix

-- The cursor of a lexer with lookahead is behind the token that waits.
def Placed (lexer : Lexer) : Prop :=
  ∀ token, lexer.lookahead = some token → lexer.cursor.Behind token

theorem Placed.peek {lexer : Lexer} (h : lexer.Placed) :
    lexer.peek.2.Placed ∧ lexer.peek.2.cursor.Behind lexer.peek.1 := by
  cases hl : lexer.lookahead with
  | none =>
    simp only [Lexer.peek, hl]
    refine ⟨?_, lexer.scan_cuts.behind⟩
    rintro token ⟨⟩
    exact lexer.scan_cuts.behind
  | some token =>
    simp only [Lexer.peek, hl]
    exact ⟨h, h token hl⟩

theorem Placed.read {lexer : Lexer} (h : lexer.Placed) :
    lexer.read.2.Placed ∧ lexer.read.2.cursor.Behind lexer.read.1 := by
  cases hl : lexer.lookahead with
  | none =>
    have hnone := lexer.lookahead_scan.trans hl
    rw [read_of_none hl]
    exact ⟨fun token htoken => by simp [hnone] at htoken, lexer.scan_cuts.behind⟩
  | some token =>
    simp only [Lexer.read, hl]
    exact ⟨fun other hother => by simp at hother, h token hl⟩

theorem Placed.drain {lexer : Lexer} (h : lexer.Placed) :
    lexer.drain.lexer.Placed ∧ lexer.drain.lexer.cursor.Behind lexer.drain.eof := by
  have hread := h.read
  by_cases hend : lexer.read.1.kind = .eof
  · rw [drain_of_end hend]
    exact hread
  · rw [drain_of_next hend]
    exact hread.1.drain
termination_by lexer.size
decreasing_by exact lexer.size_read_lt hend

theorem Placed.serve {lexer : Lexer} (h : lexer.Placed) (request : Request) :
    (lexer.serve request).2.Placed ∧
      ∀ token ∈ lexer.shown request, (lexer.serve request).2.cursor.Behind token := by
  cases request with
  | peek => exact ⟨h.peek.1, by rintro token ⟨⟩; exact h.peek.2⟩
  | isAtEnd => exact ⟨h.peek.1, by rintro token ⟨⟩; exact h.peek.2⟩
  | read => exact ⟨h.read.1, by rintro token ⟨⟩; exact h.read.2⟩
  | tokenize => exact ⟨h.drain.1, by rintro token ⟨⟩; exact h.drain.2⟩
  | append added => exact ⟨h, by rintro token ⟨⟩⟩

theorem Placed.serveAll {lexer : Lexer} (h : lexer.Placed) (requests : List Request) :
    (lexer.serveAll requests).2.Placed := by
  induction requests generalizing lexer with
  | nil => exact h
  | cons request rest ih => exact ih (h.serve request).1

theorem lookahead_serveAll {lexer : Lexer} {token : Token} (h : lexer.lookahead = some token)
    (waiting : List Request) (hw : ∀ request ∈ waiting, request.handsOut = false) :
    (lexer.serveAll waiting).2.lookahead = some token := by
  induction waiting generalizing lexer with
  | nil => exact h
  | cons request rest ih =>
    have hrequest := hw request List.mem_cons_self
    refine ih ?_ fun other hother => hw other (List.mem_cons_of_mem _ hother)
    cases request with
    | peek => simp only [serve, peek, h]
    | isAtEnd => simp only [serve, isAtEnd, peek, h]
    | append added => exact h
    | read => simp [Request.handsOut] at hrequest
    | tokenize => simp [Request.handsOut] at hrequest

theorem lookahead_peek (lexer : Lexer) : lexer.peek.2.lookahead = some lexer.peek.1 := by
  unfold peek
  cases hl : lexer.lookahead with
  | none => rfl
  | some token => exact hl

theorem head?_serve {lexer : Lexer} {request : Request} (h : request.handsOut = true) :
    (lexer.serve request).1.head? = some lexer.read.1 := by
  cases request with
  | read => rfl
  | tokenize =>
    simp only [serve, tokenize]
    by_cases hend : lexer.read.1.kind = .eof
    · rw [drain_of_end hend]
      rfl
    · rw [drain_of_next hend]
      rfl
  | _ => simp [Request.handsOut] at h

end Lexer

theorem drain_ofStream (text file : String) :
    ({ source := .ofString text, file } : Lexer).drain.tokens =
        ({ source := .ofStream text, file } : Lexer).drain.tokens ∧
      ({ source := .ofString text, file } : Lexer).drain.eof =
        ({ source := .ofStream text, file } : Lexer).drain.eof := by
  have hsame : ({ source := .ofStream text, file } : Lexer).fixed =
      { source := .ofString text, file } := rfl
  rw [← hsame, Lexer.drain_fixed]
  exact ⟨rfl, rfl⟩

theorem ofSource_ofStream (text file : String) :
    Reading.ofSource (.ofStream text) file = Reading.ofSource (.ofString text) file := by
  obtain ⟨htokens, heof⟩ := drain_ofStream text file
  simp only [Reading.ofSource, htokens, heof]

open Lexer in
-- Looking ahead and growth of the stream never change the tokens. `text` is what the stream had
-- given when it first said that there is no more, and nothing that comes later is handed out; a
-- token that was looked at is the next one; and the cursor stands behind the token cut last.
theorem streaming_keeps_tokens (initial file : String) (requests : List Request) :
    let start : Lexer := { source := .ofStream initial, file }
    let text := String.ofList (initial.toList ++ start.toCome requests)
    let served := start.serveAll requests
    (∃ tokens eof count, tokenize text file = tokens ++ [eof] ∧ eof.kind = .eof ∧
      served.1 <+: tokens ++ List.replicate count eof) ∧
    (∀ waiting : List Request, (∀ request ∈ waiting, request.handsOut = false) →
      ∀ request : Request, request.handsOut = true →
        ((served.2.peek.2.serveAll waiting).2.serve request).1.head? = some served.2.peek.1 ∧
        (served.2.isAtEnd.1 = true ↔
          ∃ token, ((served.2.isAtEnd.2.serveAll waiting).2.serve request).1.head? = some token ∧
            token.kind = .eof)) ∧
    (served.2.source.sawEnd = true → ∀ added request,
      ((served.2.append added).serve request).1 = (served.2.serve request).1 ∧
        ((served.2.append added).serve request).2.source.sawEnd = true) ∧
    (∀ request, ∀ token ∈ served.2.shown request, (served.2.serve request).2.cursor.Behind token) ∧
    start.tokenize.1 = tokenize initial file ∧
    Reading.ofSource (.ofStream initial) file = Reading.ofSource (.ofString initial) file ∧
    ∀ settings, evaluate (.ofStream initial) settings = evaluate (.ofString initial) settings := by
  intro start text served
  have hfill : start.fill (start.toCome requests) = { source := .ofString text, file } := by
    simp [fill, fixed, mapSource, append, start, text, Source.ofStream, Source.ofString,
      Source.append, Source.fixed, Source.visible]
  refine ⟨?_, ?_, ?_, ?_, ?_, ofSource_ofStream initial file, ?_⟩
  · have hconsistent : ({ source := .ofString text, file } : Lexer).Consistent := by
      rintro token ⟨⟩
    obtain ⟨count, hprefix⟩ := serveAll_handed hconsistent
      (requests.filter fun request => !request.isAppend) (by simp)
    rw [← hfill, ← serveAll_fill, hfill] at hprefix
    refine ⟨_, _, count, rfl, ?_, hprefix⟩
    obtain ⟨cursor, heof, _⟩ := (drain_tiles { source := .ofString text, file } rfl).eof_eq
    rw [heof]
    rfl
  · intro waiting hwaiting request hrequest
    have hlookahead := lookahead_serveAll served.2.lookahead_peek waiting hwaiting
    have hnext : (served.2.peek.2.serveAll waiting).2.read.1 = served.2.peek.1 := by
      simp only [Lexer.read, hlookahead]
    have hhead : ((served.2.peek.2.serveAll waiting).2.serve request).1.head? =
        some served.2.peek.1 := by
      rw [head?_serve hrequest, hnext]
    refine ⟨hhead, ?_⟩
    simp only [isAtEnd, hhead, decide_eq_true_eq]
    refine ⟨fun hend => ⟨_, rfl, hend⟩, ?_⟩
    rintro ⟨token, htoken, hend⟩
    exact Option.some.inj htoken ▸ hend
  · intro hsaw added request
    have hgrown : (served.2.append added).source.sawEnd = true :=
      (Source.sawEnd_append _ _).trans hsaw
    exact ⟨serve_append_of_sawEnd hsaw added request, sawEnd_serve hgrown request⟩
  · have hplaced : start.Placed := by rintro token ⟨⟩
    exact fun request => ((hplaced.serveAll requests).serve request).2
  · obtain ⟨htokens, heof⟩ := drain_ofStream initial file
    simp only [tokenize, Lexer.tokenize, start, htokens, heof]
  · intro settings
    simp only [evaluate, ofSource_ofStream]

-- A token that was looked at stays the next one when its stream grows.
theorem grown_stream_keeps_peeked :
    let lexer := (({ source := .ofStream "1" } : Lexer).serveAll [.append [' ']]).2
    ((lexer.peek.2.serveAll [.append ['2'], .isAtEnd]).2.serve .read).1.head? =
      some lexer.peek.1 :=
  ((streaming_keeps_tokens "1" unnamedInput [.append [' ']]).2.1 [.append ['2'], .isAtEnd]
    (by simp [Lexer.Request.handsOut]) .read rfl).1

end Calculator
