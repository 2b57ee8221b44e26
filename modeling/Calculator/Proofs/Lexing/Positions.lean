import Mathlib.Data.List.DropRight
import Calculator.Proofs.Lexing.Joining
import Calculator.Proofs.Lexing.Requests

namespace Calculator

namespace Cursor

-- Where an offset is in a text: so many newlines stand before it, and so many characters behind
-- the last of them.
def inText (text : List Char) (offset : Nat) : Cursor :=
  { line := 1 + (text.take offset).count '\n'
    column := 1 + ((text.take offset).rtakeWhile fun c => c ≠ '\n').length
    offset }

theorem column_pastAll (chars : List Char) :
    (({} : Cursor).pastAll chars).column = 1 + (chars.rtakeWhile fun c => c ≠ '\n').length := by
  induction chars using List.reverseRecOn with
  | nil => rfl
  | append_singleton chars c ih =>
    have hlast : ({} : Cursor).pastAll (chars ++ [c]) = (({} : Cursor).pastAll chars).past c :=
      pastAll_append _ _ _
    rw [hlast, past]
    split
    · rename_i hnewline
      rw [List.rtakeWhile_concat_neg _ _ _ (by simp [hnewline])]
      rfl
    · rename_i hsame
      rw [List.rtakeWhile_concat_pos _ _ _ (by simp [hsame]), List.length_append, ← Nat.add_assoc,
        ← ih]
      rfl

theorem pastAll_eq_inText (before rest : List Char) :
    ({} : Cursor).pastAll before = inText (before ++ rest) before.length := by
  have hline := line_pastAll {} before
  have hcolumn := column_pastAll before
  have hoffset := offset_pastAll {} before
  rw [Nat.zero_add] at hoffset
  rw [inText, List.take_left, ← hline, ← hcolumn, ← hoffset]

-- On the first line the columns are the offsets, counted from 1.
theorem column_inText_of_line {text : List Char} {offset : Nat} (h : offset ≤ text.length)
    (hline : '\n' ∉ text.take offset) : (inText text offset).column = 1 + offset := by
  have hall : ∀ c ∈ text.take offset, decide (c ≠ '\n') = true := by
    intro c hc
    rw [decide_eq_true_eq]
    rintro rfl
    exact hline hc
  rw [inText, List.rtakeWhile_eq_self_iff.mpr hall, List.length_take, Nat.min_eq_left h]

end Cursor

theorem Cuts.passes {file : String} {start after : Cursor} {chars rest : List Char} {token : Token}
    (h : Cuts file start chars token after rest) :
    ∃ taken, chars = taken ++ rest ∧ after = start.pastAll taken := by
  cases h with
  | eof separators => exact ⟨_, (List.append_nil _).symm, rfl⟩
  | @token blanks chars rest lexeme separators munch =>
    refine ⟨blanks ++ lexeme.chars, ?_, (Cursor.pastAll_append _ _ _).symm⟩
    rw [munch.split, List.append_assoc]

theorem Tiles.begins {file : String} {start : Cursor} {chars : List Char} {tokens : List Token}
    {eof : Token} (h : Tiles file start chars tokens eof) :
    ∀ token ∈ tokens ++ [eof], ∃ before rest length, chars = before ++ rest ∧
      token.span = (start.pastAll before).span length file := by
  induction h with
  | @eof start blanks separators =>
    rw [List.nil_append, List.forall_mem_singleton]
    exact ⟨blanks, [], 0, (List.append_nil blanks).symm, rfl⟩
  | @token start blanks chars rest lexeme tokens eof separators munch tiles ih =>
    rw [List.cons_append, List.forall_mem_cons]
    refine ⟨⟨blanks, chars, lexeme.chars.length, rfl, rfl⟩, fun token htoken => ?_⟩
    obtain ⟨before, behind, length, hrest, hspan⟩ := ih token htoken
    refine ⟨blanks ++ (lexeme.chars ++ before), behind, length, ?_, ?_⟩
    · rw [munch.split, hrest, List.append_assoc, List.append_assoc]
    · rw [hspan, Cursor.pastAll_append, Cursor.pastAll_append]

namespace Lexer

-- A lexer that passed the beginning of a text and has the rest of it before it.
def Stands (text : List Char) (lexer : Lexer) : Prop :=
  ∃ passed, text = passed ++ lexer.source.visible ∧ lexer.cursor = ({} : Cursor).pastAll passed

namespace Stands

variable {text : List Char} {lexer : Lexer}

theorem scan (h : lexer.Stands text) : lexer.scan.2.Stands text := by
  obtain ⟨passed, htext, hcursor⟩ := h
  obtain ⟨taken, hchars, hafter⟩ := lexer.scan_cuts.passes
  refine ⟨passed ++ taken, ?_, ?_⟩
  · rw [htext, hchars, List.append_assoc]
  · rw [hafter, hcursor, Cursor.pastAll_append]

theorem peek (h : lexer.Stands text) : lexer.peek.2.Stands text := by
  unfold Lexer.peek
  cases lexer.lookahead with
  | none => exact h.scan
  | some token => exact h

theorem read (h : lexer.Stands text) : lexer.read.2.Stands text := by
  unfold Lexer.read
  cases lexer.lookahead with
  | none => exact h.scan
  | some token => exact h

theorem drain {lexer : Lexer} (h : lexer.Stands text) : lexer.drain.lexer.Stands text := by
  by_cases hend : lexer.read.1.kind = .eof
  · rw [drain_of_end hend]
    exact h.read
  · rw [drain_of_next hend]
    exact h.read.drain
termination_by lexer.size
decreasing_by exact lexer.size_read_lt hend

theorem serve (h : lexer.Stands text) {request : Request} (hfixed : request.isAppend = false) :
    (lexer.serve request).2.Stands text := by
  cases request with
  | peek => exact h.peek
  | read => exact h.read
  | isAtEnd => exact h.peek
  | tokenize => exact h.drain
  | append added => cases hfixed

theorem serveAll (h : lexer.Stands text) {requests : List Request}
    (hfixed : ∀ request ∈ requests, request.isAppend = false) :
    (lexer.serveAll requests).2.Stands text := by
  induction requests generalizing lexer with
  | nil => exact h
  | cons request rest ih =>
    obtain ⟨hrequest, hrest⟩ := List.forall_mem_cons.mp hfixed
    exact ih (h.serve hrequest) hrest

theorem cursor_eq (h : lexer.Stands text) :
    lexer.cursor.offset ≤ text.length ∧ lexer.cursor = .inText text lexer.cursor.offset := by
  obtain ⟨passed, htext, hcursor⟩ := h
  have hoffset : lexer.cursor.offset = passed.length := by
    rw [hcursor, Cursor.offset_pastAll, Nat.zero_add]
  rw [hoffset]
  refine ⟨?_, ?_⟩
  · rw [htext, List.length_append]
    exact Nat.le_add_right _ _
  · rw [hcursor, htext]
    exact Cursor.pastAll_eq_inText _ _

end Stands

theorem stands_ofString (text file : String) :
    ({ source := .ofString text, file } : Lexer).Stands text.toList := ⟨[], rfl, rfl⟩

end Lexer

open Lexer in
-- Every token of a text, the end included, begins where the characters before its offset lead to,
-- and so does the cursor of a lexer whatever was asked of it. On a stream these are the characters
-- that it had given when it first said that there is no more.
theorem positions_are_counted (text file : String) :
    (∀ token ∈ tokenize text file, ∃ offset length, offset ≤ text.length ∧
      token.span = (Cursor.inText text.toList offset).span length file) ∧
    (∀ requests : List Request, (∀ request ∈ requests, request.isAppend = false) →
      let cursor := (({ source := .ofString text, file } : Lexer).serveAll requests).2.cursor
      cursor.offset ≤ text.length ∧ cursor = .inText text.toList cursor.offset) ∧
    (∀ requests : List Request,
      let start : Lexer := { source := .ofStream text, file }
      let given := text.toList ++ start.toCome requests
      let cursor := (start.serveAll requests).2.cursor
      cursor.offset ≤ given.length ∧ cursor = .inText given cursor.offset) ∧
    ∀ offset ≤ text.length, '\n' ∉ text.toList.take offset →
      (Cursor.inText text.toList offset).column = 1 + offset := by
  have hlength : text.toList.length = text.length := String.length_toList
  refine ⟨fun token htoken => ?_, fun requests hfixed => ?_, fun requests => ?_,
    fun offset hoffset hline => ?_⟩
  · have htiles := drain_tiles { source := .ofString text, file } rfl
    obtain ⟨before, rest, length, hsplit, hspan⟩ := htiles.begins token htoken
    have hchars : text.toList = before ++ rest := hsplit
    refine ⟨before.length, length, ?_, ?_⟩
    · rw [← hlength, hchars, List.length_append]
      exact Nat.le_add_right _ _
    · rw [hspan, hchars, Cursor.pastAll_eq_inText before rest]
  · rw [← hlength]
    exact ((stands_ofString text file).serveAll hfixed).cursor_eq
  · intro start given cursor
    have hfill : start.fill (start.toCome requests) =
        { source := .ofString (String.ofList given), file } := by
      simp [fill, Lexer.fixed, mapSource, Lexer.append, start, given, Source.ofStream,
        Source.ofString, Source.append, Source.fixed, Source.visible]
    have hfixed : ∀ request ∈ requests.filter fun request => !request.isAppend,
        request.isAppend = false := by simp
    have hserved := start.serveAll_fill_eq requests
    have hstands := (stands_ofString (String.ofList given) file).serveAll hfixed
    rw [hfill] at hserved
    rw [hserved, String.toList_ofList] at hstands
    exact hstands.cursor_eq
  · exact Cursor.column_inText_of_line (by rwa [hlength]) hline

-- Behind a newline and a tab the columns begin again, and looking ahead moves the cursor on.
theorem position_behind_tab :
    let requests : List Lexer.Request := [.read, .peek, .isAtEnd]
    let lexer : Lexer := { source := .ofString "a\n\tb" }
    (lexer.serveAll requests).2.cursor = .inText "a\n\tb".toList 4 ∧
      Cursor.inText "a\n\tb".toList 4 = ⟨2, 3, 4⟩ ∧
      (Cursor.inText "a\n\tb".toList 1).column = 2 := by
  intro requests lexer
  obtain ⟨_, hcursor, _, hline⟩ := positions_are_counted "a\n\tb" unnamedInput
  have hoffset : (lexer.serveAll requests).2.cursor.offset = 4 := by decide +kernel
  have hend := (hcursor requests (by simp [requests, Lexer.Request.isAppend])).2
  refine ⟨?_, by decide, hline 1 (by decide) (by decide)⟩
  rw [← hoffset]
  exact hend

end Calculator
