import Mathlib
import Calculator.Parser
import Calculator.Proofs.Lexing.Partition
import Calculator.Proofs.Parsing.Completeness
import Calculator.Proofs.Parsing.Soundness

namespace Calculator

open Grammar Calculator.Parser

-- A derivation within the limits of the reader.
structure Grammar.Derivation.Within (d : Derivation (.one .expression)) (tokens : List Token) :
    Prop where
  tokens : d.tokens = tokens
  admissible : d.Admissible
  depth : d.depth ≤ 64

theorem leftOver_eq_nil {tokens : List Token} (h : leftOver false tokens = []) : tokens = [] := by
  cases tokens with
  | nil => rfl
  | cons token rest =>
    unfold leftOver at h
    split at h <;> simp at h

namespace Parser.State

variable {state : State} {d : Derivation (.one .expression)}

theorem takeExpression_eq (h : state.abandoned = false) :
    state.takeExpression =
      let taken := Rule.expression maxNesting state
      if taken.2.rest.length = state.rest.length then
        (taken.1, if taken.2.rest.isEmpty then taken.2.look else taken.2.advance)
      else taken := by
  have hfresh : { state with abandoned := false } = state := by rw [← h]
  rw [takeExpression, hfresh]

theorem takeExpression_of_lt (h : state.abandoned = false)
    (hlt : (Rule.expression maxNesting state).2.rest.length < state.rest.length) :
    state.takeExpression = Rule.expression maxNesting state := by
  rw [takeExpression_eq h]
  exact if_neg (Nat.ne_of_lt hlt)

-- If the rule takes no token, the call takes the next one.
theorem takeExpression_of_eq (h : state.abandoned = false)
    (heq : (Rule.expression maxNesting state).2.rest.length = state.rest.length)
    (hsome : 0 < state.rest.length) :
    state.takeExpression =
      ((Rule.expression maxNesting state).1, (Rule.expression maxNesting state).2.advance) := by
  have hmore : ¬(Rule.expression maxNesting state).2.rest.isEmpty = true := by
    rw [List.isEmpty_iff_length_eq_zero, heq]
    exact Nat.ne_of_gt hsome
  rw [takeExpression_eq h]
  dsimp only
  rw [if_pos heq, if_neg hmore]

theorem takeExpression_fst (h : state.abandoned = false) :
    state.takeExpression.1 = (Rule.expression maxNesting state).1 := by
  rw [takeExpression_eq h]
  dsimp only
  split <;> rfl

theorem reports_takeExpression (h : state.abandoned = false) :
    state.takeExpression.2.reports = (Rule.expression maxNesting state).2.reports := by
  rw [takeExpression_eq h]
  dsimp only
  split
  · split <;> rfl
  · rfl

theorem takeExpression_of_derivation (h : state.Intact) (hd : d.Within state.rest) :
    state.takeExpression.1 = d.tree ∧ state.takeExpression.2.expectEnd.reports = state.reports := by
  obtain ⟨after, hmakes, hpasses⟩ := d.isRead hd.admissible maxNesting state [] hd.depth h.eof
    (by rw [hd.tokens, List.append_nil]) (by simp [Symbol.Ends])
  obtain ⟨token, rest, htokens, _⟩ := d.begins
  simp only [Makes, Rule.of] at hmakes
  have htaken : state.takeExpression = (d.tree, after) := by
    rw [takeExpression_of_lt h.abandoned, hmakes]
    rw [hmakes, hpasses.rest, ← hd.tokens, htokens]
    exact Nat.succ_pos _
  rw [htaken]
  exact ⟨rfl, by simp [expectEnd, hpasses.rest, hpasses.reports, leftOver]⟩

theorem derivation_of_takeExpression (h : state.Intact)
    (hquiet : state.takeExpression.2.expectEnd.reports.length ≤ state.reports.length) :
    ∃ d : Derivation (.one .expression), d.Within state.rest := by
  have hreads := Rule.expression_reads maxNesting state h.eof
  have hleads := hreads.leadsTo.length_le
  simp only [expectEnd, List.length_append, List.length_reverse,
    reports_takeExpression h.abandoned] at hquiet
  simp only [Rule.of] at hreads hleads
  obtain ⟨d, hd⟩ := hreads.derivation h (by omega)
  obtain ⟨token, rest, htokens, _⟩ := d.begins
  have hlength := congrArg List.length hd.tokens
  rw [htokens, List.length_append, List.length_cons] at hlength
  have htaken := takeExpression_of_lt h.abandoned (by omega)
  have hleft : leftOver false (Rule.expression maxNesting state).2.rest = [] := by
    rw [htaken, hd.intact.abandoned] at hquiet
    exact List.length_eq_zero_iff.mp (by omega)
  refine ⟨d, ?_, hd.admissible, hd.depth⟩
  rw [hd.tokens, leftOver_eq_nil hleft, List.append_nil]

end Parser.State

-- A text is read without a diagnostic just if the grammar derives its tokens, within the limits on
-- literals and nesting. What is read is the tree of the derivation, which is the only one.
theorem accepts_exactly_the_grammar (text file : String) :
    ((Reading.ofSource (.ofString text) file).diagnostics = [] ↔
      ∃ d : Derivation (.one .expression), d.Within (tokenize text file).dropLast) ∧
    ∀ d : Derivation (.one .expression), d.Within (tokenize text file).dropLast →
      (Reading.ofSource (.ofString text) file).expression = d.tree ∧
      ∀ d' : Derivation (.one .expression), d'.tokens = (tokenize text file).dropLast → d' = d := by
  have htokens : (tokenize text file).dropLast =
      (Lexer.drain { source := .ofString text, file }).tokens := List.dropLast_concat
  obtain ⟨cursor, heof, _⟩ := (Lexer.drain_tiles { source := .ofString text, file } rfl).eof_eq
  have hintact : Parser.State.Intact
      { rest := (Lexer.drain { source := .ofString text, file }).tokens
        eof := (Lexer.drain { source := .ofString text, file }).eof } := ⟨by rw [heof]; rfl, rfl⟩
  rw [htokens]
  refine ⟨⟨fun h => ?_, fun ⟨d, hd⟩ => ?_⟩, fun d hd => ⟨?_, fun d' hd' => ?_⟩⟩
  · apply State.derivation_of_takeExpression hintact
    have hreports := congrArg List.length h
    simp only [Reading.ofSource, Reading.ofTokens, List.length_reverse] at hreports
    exact Nat.le_of_eq hreports
  · have hreports := (State.takeExpression_of_derivation hintact hd).2
    simp only [Reading.ofSource, Reading.ofTokens]
    rw [hreports]
    rfl
  · exact (State.takeExpression_of_derivation hintact hd).1
  · exact Derivation.eq_of_tokens (hd'.trans hd.tokens.symm)

theorem accepts_name_in_parentheses :
    (Reading.ofSource (.ofString "(x)") "f").expression =
      .reference ⟨.identifier, ⟨1, 2, 1, 1, "f"⟩, some "x"⟩ "x" :=
  let name : Derivation (.one .primary) :=
    .reference ⟨.identifier, ⟨1, 2, 1, 1, "f"⟩, some "x"⟩ rfl
  let group : Derivation (.one .primary) :=
    .group ⟨.leftParen, ⟨1, 1, 0, 1, "f"⟩, none⟩
      (.comparison (.chain (.chain (.chain name .nothing) .nothing) .nothing))
      ⟨.rightParen, ⟨1, 3, 2, 1, "f"⟩, none⟩ rfl rfl
  ((accepts_exactly_the_grammar "(x)" "f").2
    (.comparison (.chain (.chain (.chain group .nothing) .nothing) .nothing))
    ⟨by cbv, by repeat constructor, by decide⟩).1

end Calculator
