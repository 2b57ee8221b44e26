import Calculator.Proofs.Lexing.Tiling

namespace Calculator

namespace Source

-- Whether the stream answered that there is no more, and nobody has taken that answer yet.
def sawEnd : Source → Bool
  | stream (some none) _ => true
  | _ => false

theorem append_nil (source : Source) : source.append [] = source := by
  cases source <;> simp [append]

theorem append_append (source : Source) (first second : List Char) :
    (source.append first).append second = source.append (first ++ second) := by
  cases source <;> simp [append]

theorem sawEnd_append (source : Source) (added : List Char) :
    (source.append added).sawEnd = source.sawEnd := by
  rcases source with _ | ⟨_ | _ | _, _⟩ <;> rfl

theorem visible_of_sawEnd {source : Source} (h : source.sawEnd = true) : source.visible = [] := by
  rcases source with _ | ⟨_ | _ | _, _⟩ <;> simp_all [sawEnd, visible]

theorem peek_of_sawEnd {source : Source} (h : source.sawEnd = true) :
    source.peek = (none, source) := by
  rcases source with _ | ⟨_ | _ | _, _⟩ <;> simp_all [sawEnd, peek]

theorem takeWhile_of_none {source : Source} (h : source.peek.1 = none) (p : Char → Bool) :
    source.takeWhile p = ([], source.peek.2) := by
  rw [takeWhile]
  split
  · rfl
  · rename_i c hc
    simp [h] at hc

theorem takeWhile_of_pos {source : Source} {c : Char} (h : source.peek.1 = some c)
    {p : Char → Bool} (hp : p c = true) :
    source.takeWhile p = (c :: (source.read.2.takeWhile p).1, (source.read.2.takeWhile p).2) := by
  rw [takeWhile]
  split
  · rename_i hnone
    simp [h] at hnone
  · rename_i d hd
    obtain rfl : c = d := Option.some.inj (h.symm.trans hd)
    simp [hp]

theorem takeWhile_of_neg {source : Source} {c : Char} (h : source.peek.1 = some c)
    {p : Char → Bool} (hp : ¬p c = true) : source.takeWhile p = ([], source.peek.2) := by
  rw [takeWhile]
  split
  · rfl
  · rename_i d hd
    obtain rfl : c = d := Option.some.inj (h.symm.trans hd)
    simp [hp]

theorem takeWhile_of_sawEnd {source : Source} (h : source.sawEnd = true) (p : Char → Bool) :
    source.takeWhile p = ([], source) := by
  have hpeek := peek_of_sawEnd h
  rw [takeWhile_of_none (by rw [hpeek]), hpeek]

theorem peek_append {source : Source} (h : source.peek.2.sawEnd = false) (added : List Char) :
    (source.append added).peek = (source.peek.1, source.peek.2.append added) := by
  rcases source with _ | ⟨_ | _, _ | _⟩ <;> simp_all [peek, append, sawEnd]

theorem read_append {source : Source} {c : Char} (h : source.peek.1 = some c) (added : List Char) :
    (source.append added).read = (source.read.1, source.read.2.append added) := by
  rcases source with _ | ⟨_ | _, _ | _⟩ <;> simp_all [peek, read, append]

theorem peek_append_of_some {source : Source} {c : Char} (h : source.peek.1 = some c)
    (added : List Char) : (source.append added).peek.1 = some c := by
  rcases source with _ | ⟨_ | _, _ | _⟩ <;> simp_all [peek, append]

-- A run that ended before the end of the stream was seen ends at the same place in a longer one.
theorem takeWhile_append {source : Source} {p : Char → Bool}
    (h : (source.takeWhile p).2.sawEnd = false) (added : List Char) :
    (source.append added).takeWhile p =
      ((source.takeWhile p).1, (source.takeWhile p).2.append added) := by
  fun_induction takeWhile p source with
  | case1 source hend =>
    have hpeek := peek_append h added
    have hnone : (source.append added).peek.1 = none := by rw [hpeek, hend]
    rw [takeWhile_of_none hnone, hpeek]
  | case2 source c hc hp run ih =>
    have hread := read_append hc added
    rw [takeWhile_of_pos (peek_append_of_some hc added) hp, hread]
    simp only [run, ih h]
  | case3 source c hc hp =>
    have hpeek := peek_append h added
    rw [takeWhile_of_neg (peek_append_of_some hc added) hp, hpeek]

theorem takeLexeme_append {source : Source} {c : Char} (hc : source.peek.1 = some c)
    (h : (source.takeLexeme c).2.sawEnd = false) (added : List Char) :
    (source.append added).takeLexeme c =
      ((source.takeLexeme c).1, (source.takeLexeme c).2.append added) := by
  have hread := read_append hc added
  unfold takeLexeme at h ⊢
  rw [hread]
  split
  · simp_all [takeWhile_append]
  split
  · simp_all [takeWhile_append]
  cases hequals : withEquals? c with
  | none => simp_all
  | some kinds =>
    by_cases hnext : source.read.2.peek.1 = some '='
    · simp_all [peek_append_of_some, read_append]
    · have hsaw : source.read.2.peek.2.sawEnd = false := by simp_all
      have hgrown := peek_append hsaw added
      simp_all

-- The source as the text it would give if nothing came any more.
def fixed (source : Source) : Source := .text source.visible

theorem peek_fixed (source : Source) :
    source.fixed.peek = (source.peek.1, source.peek.2.fixed) := by
  rw [peek_fst, fixed, fixed, visible_peek]
  rfl

theorem read_fixed {source : Source} {c : Char} (h : source.peek.1 = some c) :
    source.fixed.read = (source.read.1, source.read.2.fixed) := by
  rw [read_fst, fixed, fixed, visible_read_of_peek h]
  rfl

theorem takeWhile_text (chars : List Char) (p : Char → Bool) :
    (text chars).takeWhile p = (chars.takeWhile p, text (chars.dropWhile p)) := by
  induction chars with
  | nil => exact takeWhile_of_none rfl p
  | cons c rest ih =>
    by_cases hp : p c = true
    · have hrest : (text (c :: rest)).read.2 = text rest := rfl
      rw [takeWhile_of_pos rfl hp, hrest, ih, List.takeWhile_cons_of_pos hp,
        List.dropWhile_cons_of_pos hp]
    · rw [takeWhile_of_neg rfl hp, List.takeWhile_cons_of_neg hp, List.dropWhile_cons_of_neg hp]
      rfl

theorem takeWhile_fixed (source : Source) (p : Char → Bool) :
    source.fixed.takeWhile p = ((source.takeWhile p).1, (source.takeWhile p).2.fixed) := by
  rw [fixed, takeWhile_text, takeWhile_fst, fixed, visible_takeWhile]

theorem takeLexeme_fixed {source : Source} {c : Char} (hc : source.peek.1 = some c) :
    source.fixed.takeLexeme c = ((source.takeLexeme c).1, (source.takeLexeme c).2.fixed) := by
  have hread := read_fixed hc
  unfold takeLexeme
  rw [hread]
  simp only [takeWhile_fixed, peek_fixed]
  split
  · rfl
  split
  · rfl
  split
  · split
    · rename_i hnext
      rw [read_fixed hnext]
    · rfl
  · rfl

end Source

namespace Lexer

def mapSource (change : Source → Source) (lexer : Lexer) : Lexer :=
  { lexer with source := change lexer.source }

-- The lexer as it would go on if no text came any more.
def fixed (lexer : Lexer) : Lexer := lexer.mapSource Source.fixed

-- A change of the source that cutting one token does not notice is not noticed with lookahead.
theorem peek_mapSource {change : Source → Source} {lexer : Lexer}
    (h : lexer.lookahead = none →
      (lexer.mapSource change).scan = (lexer.scan.1, lexer.scan.2.mapSource change)) :
    (lexer.mapSource change).peek = (lexer.peek.1, lexer.peek.2.mapSource change) := by
  obtain ⟨source, file, cursor, lookahead⟩ := lexer
  cases lookahead with
  | none =>
    have hscan := h rfl
    simp only [mapSource] at hscan
    simp only [peek, mapSource, hscan]
  | some token => rfl

theorem read_mapSource {change : Source → Source} {lexer : Lexer}
    (h : lexer.lookahead = none →
      (lexer.mapSource change).scan = (lexer.scan.1, lexer.scan.2.mapSource change)) :
    (lexer.mapSource change).read = (lexer.read.1, lexer.read.2.mapSource change) := by
  obtain ⟨source, file, cursor, lookahead⟩ := lexer
  cases lookahead with
  | none => exact h rfl
  | some token => rfl

-- A token that was cut before the end of the stream was seen is the same in a longer stream.
theorem scan_append {lexer : Lexer} (h : lexer.scan.2.source.sawEnd = false) (added : List Char) :
    (lexer.append added).scan = (lexer.scan.1, lexer.scan.2.append added) := by
  have hblanks : (lexer.source.takeWhile isSeparator).2.sawEnd = false := by
    cases hsaw : (lexer.source.takeWhile isSeparator).2.sawEnd with
    | false => rfl
    | true => simp [scan, Source.peek_of_sawEnd hsaw, hsaw] at h
  have hrun := Source.takeWhile_append hblanks added
  unfold scan append at *
  rw [hrun]
  cases hc : (lexer.source.takeWhile isSeparator).2.peek.1 with
  | none =>
    simp only [hc] at h
    have hpeek := Source.peek_append h added
    simp only [hpeek, hc]
  | some c =>
    simp only [hc] at h
    have hlexeme := Source.takeLexeme_append hc h added
    simp only [Source.peek_append_of_some hc added, hlexeme, hc]

-- Once the end of the stream was seen every token is the end of the text at the same place.
theorem scan_of_sawEnd {lexer : Lexer} (h : lexer.source.sawEnd = true) :
    lexer.scan = (lexer.cursor.eof lexer.file, lexer) := by
  have hrun := Source.takeWhile_of_sawEnd h isSeparator
  simp only [scan, hrun, Source.peek_of_sawEnd h]
  rfl

theorem scan_fixed (lexer : Lexer) : lexer.fixed.scan = (lexer.scan.1, lexer.scan.2.fixed) := by
  unfold scan fixed mapSource
  simp only [Source.takeWhile_fixed, Source.peek_fixed]
  split
  · rfl
  · rename_i c hc
    simp only [Source.takeLexeme_fixed hc]

end Lexer

end Calculator
