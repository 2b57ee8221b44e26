import Calculator.Proofs.Lexing.Joining
import Calculator.Proofs.Parsing.Lockstep
import Calculator.Proofs.Parsing.Progress

namespace Calculator

open Calculator.Parser Grammar

-- The text before one of several texts that are joined by newlines.
def textBefore (texts : List String) (i : Nat) : String :=
  String.join ((texts.take i).map (· ++ "\n"))

theorem textBefore_succ (text : String) (rest : List String) (i : Nat) :
    textBefore (text :: rest) (i + 1) = text ++ "\n" ++ textBefore rest i := by
  rw [textBefore, List.take_succ_cons, List.map_cons, String.join_cons]
  rfl

def tokensAt (file text : String) (lines characters : Nat) : List Token :=
  ({ source := .ofString text, file } : Lexer).drain.tokens.map
    (Token.moved (Span.shifted lines characters))

-- The tokens of several texts that are joined by newlines.
def programTokens (file : String) : List String → Nat → Nat → List Token
  | [], _, _ => []
  | text :: rest, lines, characters =>
    tokensAt file text lines characters ++ programTokens file rest
      (lines + (text ++ "\n").toList.count '\n') (characters + (text ++ "\n").length)

namespace Cursor

theorem shifted_shifted (cursor : Cursor) (lines lines' characters characters' : Nat) :
    (cursor.shifted lines characters).shifted lines' characters' =
      cursor.shifted (lines + lines') (characters + characters') := by
  simp only [shifted, Nat.add_assoc]

theorem span_shifted (cursor : Cursor) (lines characters length : Nat) (file : String) :
    (cursor.span length file).shifted lines characters =
      (cursor.shifted lines characters).span length file := by
  simp [span, Span.shifted, shifted]

end Cursor

theorem toList_newline : ("\n" : String).toList = ['\n'] := rfl

theorem Cursor.pastAll_text (text : String) (lines characters : Nat) :
    (({} : Cursor).shifted lines characters).pastAll (text.toList ++ ['\n']) =
      ({} : Cursor).shifted (lines + (text ++ "\n").toList.count '\n')
        (characters + (text ++ "\n").length) := by
  have hline : (text ++ "\n").toList = text.toList ++ ['\n'] := by
    rw [String.toList_append, toList_newline]
  rw [pastAll_newline rfl, shifted_shifted, ← String.length_toList, hline]

namespace Tiles

variable (file : String)

theorem ofString (text : String) (lines characters : Nat) :
    ∃ eof, Tiles file (({} : Cursor).shifted lines characters) text.toList
      (tokensAt file text lines characters) eof :=
  ⟨_, (Lexer.drain_tiles { source := .ofString text, file } rfl).moved
    (Cursor.shifted lines characters) (Span.shifted lines characters)
    (Cursor.shifted_pastAll lines characters)
    fun cursor length => cursor.span_shifted lines characters length file⟩

theorem program (texts : List String) (lines characters : Nat) :
    ∃ eof, Tiles file (({} : Cursor).shifted lines characters)
      ("\n".intercalate texts).toList (programTokens file texts lines characters) eof := by
  induction texts generalizing lines characters with
  | nil => exact ⟨_, .nil file _⟩
  | cons text rest ih =>
    obtain ⟨eof, hfirst⟩ := Tiles.ofString file text lines characters
    cases rest with
    | nil =>
      rw [String.intercalate_singleton, programTokens, programTokens, List.append_nil]
      exact ⟨eof, hfirst⟩
    | cons next others =>
      obtain ⟨eof', hrest⟩ := ih (lines + (text ++ "\n").toList.count '\n')
        (characters + (text ++ "\n").length)
      rw [← Cursor.pastAll_text] at hrest
      rw [String.intercalate_cons_cons, String.toList_append, String.toList_append, toList_newline,
        List.append_assoc, List.singleton_append, programTokens]
      exact ⟨eof', hfirst.append hrest⟩

end Tiles

theorem Span.rigid_shifted (lines characters : Nat) :
    Span.Rigid (Span.shifted lines characters) := by
  refine ⟨fun _ => rfl, fun first second => ?_⟩
  simp only [Span.shifted, Span.stop]
  omega

theorem derivation_tokensAt {file text : String}
    (hclean : (Reading.ofSource (.ofString text) file).diagnostics = [])
    (lines characters : Nat) :
    ∃ d : Derivation (.one .expression), d.Within (tokensAt file text lines characters) ∧
      d.tree = (Reading.ofSource (.ofString text) file).expression.moved
        (Span.shifted lines characters) := by
  let lexer : Lexer := { source := .ofString text, file }
  obtain ⟨hexpression, hlength⟩ := Reading.ofTokens_moved (Span.rigid_shifted lines characters)
    (Lexer.kind_ne_empty (.ofString text) file) lexer.kind_eof
  have hnone : (Reading.ofTokens lexer.drain.tokens lexer.drain.eof).diagnostics = [] := hclean
  rw [hnone, List.length_nil, List.length_eq_zero_iff] at hlength
  obtain ⟨d, hd, htree⟩ := Reading.derivation_of_tokens
    ((Token.kind_moved _ _).trans lexer.kind_eof) hlength
  exact ⟨d, hd, htree.symm.trans hexpression⟩

-- No expression goes on with the first token of another one.
theorem ends_of_derivation (d : Derivation (.one .expression)) (behind : List Token) :
    (Symbol.one .expression).Ends (d.tokens ++ behind) := by
  obtain ⟨token, rest, htokens, hbegins⟩ := d.begins
  rw [htokens, List.cons_append, Symbol.ends_cons]
  cases hkind : token.kind <;> rw [hkind] at hbegins <;> first | rfl | cases hbegins

theorem ends_program {file : String} {texts : List String}
    (hclean : ∀ text ∈ texts, (Reading.ofSource (.ofString text) file).diagnostics = [])
    (lines characters : Nat) :
    (Symbol.one .expression).Ends (programTokens file texts lines characters) := by
  cases texts with
  | nil => simp [Symbol.Ends, programTokens]
  | cons text rest =>
    obtain ⟨d, hd, _⟩ := derivation_tokensAt (hclean text List.mem_cons_self) lines characters
    rw [programTokens, ← hd.tokens]
    exact ends_of_derivation d _

namespace Parser

-- A parser that found nothing to report, before some tokens.
structure Before (tokens : List Token) (parser : Parser) : Prop where
  tokens : parser.lexer.drain.tokens = tokens
  diagnostics : parser.diagnostics = []
  abandoned : parser.abandoned = false

theorem drain_settle {parser : Parser} {after : State} {taken : List Token}
    (h : parser.lexer.drain.tokens = taken ++ after.rest) :
    (parser.settle parser.state after).lexer.drain.tokens = after.rest := by
  have hcount : parser.lexer.drain.tokens.length - after.rest.length = taken.length := by
    rw [h, List.length_append, Nat.add_sub_cancel]
  have hle : taken.length ≤ parser.lexer.drain.tokens.length := by
    rw [h, List.length_append]
    exact Nat.le_add_right _ _
  have hskip : (parser.lexer.skip taken.length).drain.tokens = after.rest := by
    rw [Lexer.drain_skip hle, h, List.drop_left]
  simp only [settle, state, hcount]
  split
  · rw [Lexer.drain_peek, hskip]
  · exact hskip

theorem Before.takeExpression {parser : Parser} {d : Derivation (.one .expression)}
    {tokens behind : List Token} (h : parser.Before (tokens ++ behind)) (hd : d.Within tokens)
    (hends : (Symbol.one .expression).Ends behind) :
    parser.takeExpression.1 = d.tree ∧ parser.takeExpression.2.Before behind := by
  obtain ⟨after, hmakes, hpasses⟩ := d.isRead hd.admissible maxNesting parser.state behind hd.depth
    (Lexer.kind_eof _) (by rw [hd.tokens]; exact h.tokens) hends
  obtain ⟨first, rest, hfirst, _⟩ := d.begins
  simp only [Makes, Rule.of] at hmakes
  have htaken : parser.state.takeExpression = (d.tree, after) := by
    rw [State.takeExpression_of_lt h.abandoned, hmakes]
    have hstate : parser.state.rest = tokens ++ behind := h.tokens
    rw [hmakes, hpasses.rest, hstate, ← hd.tokens, hfirst, List.length_append, List.length_cons]
    omega
  rw [Parser.takeExpression]
  dsimp only
  rw [htaken]
  have hsplit : parser.lexer.drain.tokens = tokens ++ after.rest := by
    rw [hpasses.rest]
    exact h.tokens
  refine ⟨rfl, ?_, ?_, hpasses.abandoned.trans h.abandoned⟩
  · rw [drain_settle hsplit, hpasses.rest]
  · have hreports : after.reports = parser.diagnostics.reverse := hpasses.reports
    simp only [settle, hreports, h.diagnostics, List.reverse_nil]

-- Reads so many expressions, each by one call.
def takeTimes (parser : Parser) : Nat → List Expression × Parser
  | 0 => ([], parser)
  | count + 1 =>
    let taken := parser.takeExpression
    let others := taken.2.takeTimes count
    (taken.1 :: others.1, others.2)

-- That calls read texts, the first of which begins so many lines and characters further on.
structure Splits (file : String) (texts : List String) (lines characters : Nat)
    (parser : Parser) : Prop where
  length : (parser.takeTimes texts.length).1.length = texts.length
  trees : ∀ i text, texts[i]? = some text → (parser.takeTimes texts.length).1[i]? =
    some ((Reading.ofSource (.ofString text) file).expression.moved
      (Span.shifted (lines + (textBefore texts i).toList.count '\n')
        (characters + (textBefore texts i).length)))
  diagnostics : (parser.takeTimes texts.length).2.diagnostics = []
  isAtEnd : ∀ i ≤ texts.length,
    ((parser.takeTimes i).2.lexer.isAtEnd.1 = true ↔ i = texts.length)

theorem Before.splits {file : String} {texts : List String} {parser : Parser}
    {lines characters : Nat}
    (hclean : ∀ text ∈ texts, (Reading.ofSource (.ofString text) file).diagnostics = [])
    (h : parser.Before (programTokens file texts lines characters)) :
    parser.Splits file texts lines characters := by
  induction texts generalizing parser lines characters with
  | nil =>
    refine ⟨rfl, by simp, h.diagnostics, fun i hi => ?_⟩
    obtain rfl : i = 0 := Nat.le_zero.mp hi
    exact ⟨fun _ => rfl, fun _ => (Lexer.isAtEnd_iff _).mpr h.tokens⟩
  | cons text rest ih =>
    obtain ⟨htext, hrest⟩ := List.forall_mem_cons.mp hclean
    obtain ⟨d, hd, htree⟩ := derivation_tokensAt htext lines characters
    obtain ⟨htaken, hbefore⟩ := Before.takeExpression h hd (ends_program hrest _ _)
    obtain ⟨hlength, htrees, hdiagnostics, hends⟩ := ih hrest hbefore
    -- the first call reads the first text, the induction is on the texts behind it
    refine ⟨?_, ?_, hdiagnostics, ?_⟩
    · simp only [List.length_cons, takeTimes, hlength]
    · intro i text' hi
      cases i with
      | zero =>
        obtain rfl : text = text' := Option.some.inj hi
        simp only [List.length_cons, takeTimes, List.getElem?_cons_zero, htaken, htree]
        rfl
      | succ i =>
        rw [List.getElem?_cons_succ] at hi
        simp only [List.length_cons, takeTimes, List.getElem?_cons_succ]
        have hbefore : (textBefore (text :: rest) (i + 1)).toList =
            (text ++ "\n").toList ++ (textBefore rest i).toList := by
          rw [textBefore_succ, String.toList_append]
        rw [htrees i text' hi, ← String.length_toList (s := textBefore (text :: rest) (i + 1)),
          hbefore, List.count_append, List.length_append, String.length_toList,
          String.length_toList, Nat.add_assoc, Nat.add_assoc]
    · intro i hi
      cases i with
      | zero =>
        obtain ⟨first, others, hfirst, _⟩ := d.begins
        have hsome : parser.lexer.drain.tokens ≠ [] := by
          rw [h.tokens, programTokens, ← hd.tokens, hfirst]
          exact List.cons_ne_nil _ _
        have hmore : ¬parser.lexer.isAtEnd.1 = true := fun hend =>
          hsome ((Lexer.isAtEnd_iff _).mp hend)
        exact ⟨fun hend => absurd hend hmore, by simp⟩
      | succ i =>
        rw [List.length_cons, Nat.succ_inj]
        exact hends i (Nat.le_of_succ_le_succ hi)

end Parser

-- Of texts that are each read without a diagnostic, joined by newlines, every call reads one: its
-- tree, as far down and on as the text stands. Nothing is reported, and the lexer is at its end
-- after the last call and not before.
theorem calls_split_program (texts : List String) (file : String)
    (hclean : ∀ text ∈ texts, (Reading.ofSource (.ofString text) file).diagnostics = []) :
    let parser : Parser := { lexer := { source := .ofString ("\n".intercalate texts), file } }
    let read := parser.takeTimes texts.length
    read.1.length = texts.length ∧
    (∀ i text, texts[i]? = some text → read.1[i]? =
      some ((Reading.ofSource (.ofString text) file).expression.moved
        (Span.shifted ((textBefore texts i).toList.count '\n') (textBefore texts i).length))) ∧
    read.2.diagnostics = [] ∧
    ∀ i ≤ texts.length, ((parser.takeTimes i).2.lexer.isAtEnd.1 = true ↔ i = texts.length) := by
  intro parser read
  obtain ⟨eof, htiles⟩ := Tiles.program file texts 0 0
  have htokens : parser.lexer.drain.tokens = programTokens file texts 0 0 :=
    (Lexer.drain_of_tiles parser.lexer rfl htiles).1
  have hbefore : parser.Before (programTokens file texts 0 0) := ⟨htokens, rfl, rfl⟩
  obtain ⟨hlength, htrees, hdiagnostics, hends⟩ := hbefore.splits hclean
  simp only [Nat.zero_add] at htrees
  exact ⟨hlength, htrees, hdiagnostics, hends⟩

-- A definition that goes over two lines, and behind it a name in parentheses.
theorem definition_and_parenthesis :
    let texts := ["let a\n= 1", "(a)"]
    let source := Source.ofString ("\n".intercalate texts)
    let parser : Parser := { lexer := { source, file := "f" } }
    (parser.takeTimes 2).1[1]? =
        some (.reference ⟨.identifier, ⟨3, 2, 11, 1, "f"⟩, some "a"⟩ "a") ∧
      (parser.takeTimes 2).2.diagnostics = [] ∧
      (parser.takeTimes 1).2.lexer.isAtEnd.1 = false ∧
      (parser.takeTimes 2).2.lexer.isAtEnd.1 = true := by
  intro texts source parser
  have hclean : ∀ text ∈ texts, (Reading.ofSource (.ofString text) "f").diagnostics = [] := by
    have hdefinition : (Reading.ofSource (.ofString "let a\n= 1") "f").diagnostics = [] := by cbv
    have hname : (Reading.ofSource (.ofString "(a)") "f").diagnostics = [] := by cbv
    simp only [texts, List.forall_mem_cons, List.not_mem_nil, false_implies, implies_true, and_true]
    exact ⟨hdefinition, hname⟩
  obtain ⟨_, htrees, hdiagnostics, hends⟩ := calls_split_program texts "f" hclean
  have hmore := (hends 1 (by decide)).not.mpr (by decide)
  refine ⟨(htrees 1 "(a)" rfl).trans ?_, hdiagnostics, Bool.eq_false_iff.mpr hmore,
    (hends 2 (Nat.le_refl _)).mpr rfl⟩
  have hname : (Reading.ofSource (.ofString "(a)") "f").expression =
      .reference ⟨.identifier, ⟨1, 2, 1, 1, "f"⟩, some "a"⟩ "a" := by cbv
  rw [hname]
  decide

end Calculator
