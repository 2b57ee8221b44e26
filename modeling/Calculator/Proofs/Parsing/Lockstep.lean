import Mathlib.Data.List.Forall2
import Calculator.Parser
import Calculator.Proofs.Trees.Moving

namespace Calculator

open Calculator.Parser

-- That the second token begins where the first one ends.
def Touches (first second : Token) : Prop := second.span.offset = first.span.stop

instance (first second : Token) : Decidable (Touches first second) :=
  inferInstanceAs (Decidable (_ = _))

-- A way to move spans that keeps their lengths and keeps together those that touch.
structure Span.Rigid (move : Span → Span) : Prop where
  length : ∀ span, (move span).length = span.length
  touching : ∀ first second, (move second).offset = (move first).stop ↔
    second.offset = first.stop

-- Tokens that differ in their places only.
structure Token.Alike (token token' : Token) : Prop where
  kind : token.kind = token'.kind
  text : token.text = token'.text
  length : token.span.length = token'.span.length

namespace Token.Alike

variable {token token' : Token}

theorem lexeme (h : token.Alike token') : token.lexeme = token'.lexeme := by
  rw [Token.lexeme, Token.lexeme, h.kind, h.text]

theorem describe (h : token.Alike token') : token.describe = token'.describe := by
  rw [Token.describe, Token.describe, h.kind, h.lexeme]

theorem invalidCharacter (h : token.Alike token') :
    Message.invalidCharacter token = Message.invalidCharacter token' := by
  unfold Message.invalidCharacter
  rw [h.lexeme]

theorem tooLong (h : token.Alike token') :
    Message.tooLong token = Message.tooLong token' := by
  unfold Message.tooLong
  rw [h.length]

theorem expected (h : token.Alike token') (what : String) :
    Message.expected what token = Message.expected what token' := by
  unfold Message.expected
  rw [h.describe]

theorem leftOver (h : token.Alike token') :
    Message.leftOver token = Message.leftOver token' := by
  unfold Message.leftOver
  rw [h.describe]

end Token.Alike

-- A relation between the tokens of two texts that differ in their places only. Two functions make
-- the same of both.
structure Pairs (related : Token → Token → Prop) (f g : Token → Token) : Prop where
  alike : ∀ {token token'}, related token token' → token.Alike token'
  same : ∀ {token token'}, related token token' → f token = g token'
  empty : f .empty = g .empty

-- Tokens related one by one, of which the same ones touch a decimal point.
inductive Abreast (related : Token → Token → Prop) : List Token → List Token → Prop where
  | nil : Abreast related [] []
  | cons {first first' : Token} {rest rest' : List Token} (first_related : related first first')
      (touching : ∀ second ∈ rest.head?, ∀ second' ∈ rest'.head?,
        first.kind = .period ∨ second.kind = .period →
          (Touches first second ↔ Touches first' second'))
      (tail : Abreast related rest rest') : Abreast related (first :: rest) (first' :: rest')

-- Diagnostics that say the same at related tokens.
structure Diagnostic.Matches (related : Token → Token → Prop) (d d' : Diagnostic) : Prop where
  kind : d.kind = d'.kind
  message : d.message = d'.message
  anchor : ∃ token token', related token token' ∧ d.span = some token.span ∧
    d'.span = some token'.span

variable {related : Token → Token → Prop} {f g : Token → Token}

theorem Diagnostic.matches_misplaced {message message' : String} {token token' : Token}
    (hmessage : message = message') (htoken : related token token') :
    Diagnostic.Matches related (misplaced message token) (misplaced message' token') :=
  ⟨rfl, hmessage, token, token', htoken, rfl, rfl⟩

theorem Pairs.matches_invalidCharacter (pairs : Pairs related f g) {token token' : Token}
    (htoken : related token token') :
    Diagnostic.Matches related (invalidCharacter token) (invalidCharacter token') :=
  ⟨rfl, (pairs.alike htoken).invalidCharacter, token, token', htoken, rfl, rfl⟩

namespace Abreast

variable {rest rest' : List Token}

theorem cons_iff {first first' : Token} :
    Abreast related (first :: rest) (first' :: rest') ↔
      related first first' ∧
        (∀ second ∈ rest.head?, ∀ second' ∈ rest'.head?,
          first.kind = .period ∨ second.kind = .period →
            (Touches first second ↔ Touches first' second')) ∧
        Abreast related rest rest' := by
  constructor
  · rintro ⟨⟩
    exact ⟨‹_›, ‹_›, ‹_›⟩
  · rintro ⟨hfirst, htouching, htail⟩
    exact .cons hfirst htouching htail

instance decidable [DecidableRel related] : ∀ rest rest', Decidable (Abreast related rest rest')
  | [], [] => isTrue .nil
  | [], _ :: _ => isFalse (by rintro ⟨⟩)
  | _ :: _, [] => isFalse (by rintro ⟨⟩)
  | _ :: rest, _ :: rest' =>
    have := decidable rest rest'
    decidable_of_iff _ cons_iff.symm

theorem self_map {change : Token → Token} (hrelated : ∀ token ∈ rest, related token (change token))
    (htouches : ∀ first ∈ rest, ∀ second ∈ rest,
      Touches first second ↔ Touches (change first) (change second)) :
    Abreast related rest (rest.map change) := by
  induction rest with
  | nil => exact .nil
  | cons first rest ih =>
    obtain ⟨hfirst, hrest⟩ := List.forall_mem_cons.mp hrelated
    refine .cons hfirst ?_ (ih hrest fun token htoken second hsecond =>
      htouches token (List.mem_cons_of_mem _ htoken) second (List.mem_cons_of_mem _ hsecond))
    intro second hsecond second' hsecond' _
    rw [Option.mem_def, List.head?_map, Option.map_eq_some_iff] at hsecond'
    obtain ⟨token, htoken, rfl⟩ := hsecond'
    obtain rfl : token = second := Option.some.inj (htoken.symm.trans hsecond)
    exact htouches first List.mem_cons_self token
      (List.mem_cons_of_mem _ (List.mem_of_head? htoken))

theorem length (h : Abreast related rest rest') : rest.length = rest'.length := by
  induction h with
  | nil => rfl
  | cons _ _ _ ih => exact congrArg (· + 1) ih

theorem tail (h : Abreast related rest rest') : Abreast related rest.tail rest'.tail := by
  cases h with
  | nil => exact .nil
  | cons _ _ htail => exact htail

theorem headD {eof eof' : Token} (h : Abreast related rest rest') (heof : related eof eof') :
    related (rest.headD eof) (rest'.headD eof') := by
  cases h with
  | nil => exact heof
  | cons hfirst _ _ => exact hfirst

theorem splitInvalid (pairs : Pairs related f g) (h : Abreast related rest rest') :
    Abreast related (rest.dropWhile fun token => token.kind = .invalid)
        (rest'.dropWhile fun token => token.kind = .invalid) ∧
      List.Forall₂ (Diagnostic.Matches related)
        ((rest.takeWhile fun token => token.kind = .invalid).map invalidCharacter)
        ((rest'.takeWhile fun token => token.kind = .invalid).map invalidCharacter) := by
  induction h with
  | nil => exact ⟨.nil, .nil⟩
  | @cons first first' rest rest' hfirst htouching htail ih =>
    have hkind := (pairs.alike hfirst).kind
    by_cases hinvalid : first.kind = .invalid
    · have hinvalid' : first'.kind = .invalid := hkind ▸ hinvalid
      simp only [List.dropWhile_cons, List.takeWhile_cons, hinvalid, hinvalid', decide_true,
        if_true, List.map_cons]
      exact ⟨ih.1, .cons (pairs.matches_invalidCharacter hfirst) ih.2⟩
    · have hinvalid' : first'.kind ≠ .invalid := hkind ▸ hinvalid
      simp only [List.dropWhile_cons, List.takeWhile_cons, hinvalid, hinvalid', decide_false,
        Bool.false_eq_true, if_false, List.map_nil]
      exact ⟨.cons hfirst htouching htail, .nil⟩

theorem leftOver (pairs : Pairs related f g) (h : Abreast related rest rest') (reported : Bool) :
    List.Forall₂ (Diagnostic.Matches related) (leftOver reported rest)
      (leftOver reported rest') := by
  induction h generalizing reported with
  | nil => exact .nil
  | @cons first first' rest rest' hfirst _ _ ih =>
    have halike := pairs.alike hfirst
    rw [Parser.leftOver, Parser.leftOver, ← halike.kind]
    split
    · exact .cons (pairs.matches_invalidCharacter hfirst) (ih reported)
    · cases reported with
      | true => exact ih true
      | false => exact .cons (Diagnostic.matches_misplaced halike.leftOver hfirst) (ih true)

end Abreast

namespace Parser

-- Two states with tokens abreast that reported the same.
structure State.Abreast (related : Token → Token → Prop) (state state' : State) : Prop where
  rest : Calculator.Abreast related state.rest state'.rest
  eof : related state.eof state'.eof
  ended : state.eof.kind = .eof
  reports : List.Forall₂ (Diagnostic.Matches related) state.reports state'.reports
  abandoned : state.abandoned = state'.abandoned

-- What a rule makes of two such states: the same expression, once its tokens are brought to one
-- place, and again two such states.
def Rule.Parallel (related : Token → Token → Prop) (f g : Token → Token) (rule : Rule) : Prop :=
  ∀ {state state' : State}, state.Abreast related state' →
    (rule state).1.mapTokens f = (rule state').1.mapTokens g ∧
      (rule state).2.Abreast related (rule state').2

namespace State.Abreast

variable {state state' : State}

theorem next (h : state.Abreast related state') : related state.next state'.next :=
  h.rest.headD h.eof

theorem look (h : state.Abreast related state') : state.look.Abreast related state'.look :=
  ⟨h.rest, h.eof, h.ended, h.reports, h.abandoned⟩

theorem advance (h : state.Abreast related state') :
    state.advance.Abreast related state'.advance :=
  ⟨h.rest.tail, h.eof, h.ended, h.reports, h.abandoned⟩

theorem abandon (h : state.Abreast related state') :
    state.abandon.Abreast related state'.abandon :=
  ⟨.nil, h.eof, h.ended, h.reports, rfl⟩

theorem report {d d' : Diagnostic} (h : state.Abreast related state')
    (hd : Diagnostic.Matches related d d') :
    (state.report d).Abreast related (state'.report d') :=
  ⟨h.rest, h.eof, h.ended, .cons hd h.reports, h.abandoned⟩

theorem complain {message message' : String} {token token' : Token}
    (h : state.Abreast related state') (hmessage : message = message')
    (htoken : related token token') :
    (state.complain message token).Abreast related (state'.complain message' token') := by
  unfold State.complain
  rw [← h.abandoned]
  split
  · exact h
  · exact h.report (Diagnostic.matches_misplaced hmessage htoken)

-- The end of the text is not followed by another token, so it is none of the two.
theorem touches (h : state.Abreast related state') (hend : state.advance.next.kind ≠ .eof)
    (hperiod : state.next.kind = .period ∨ state.advance.next.kind = .period) :
    Touches state.next state.advance.next ↔ Touches state'.next state'.advance.next := by
  obtain ⟨rest, eof, ahead, reports, abandoned⟩ := state
  obtain ⟨rest', eof', ahead', reports', abandoned'⟩ := state'
  obtain ⟨hrest, -, hended, -, -⟩ := h
  cases hrest with
  | nil => exact absurd hended hend
  | cons _ htouching htail =>
    cases htail with
    | nil => exact absurd hended hend
    | cons _ _ _ => exact htouching _ rfl _ rfl hperiod

variable (pairs : Pairs related f g)

include pairs

theorem kind (h : state.Abreast related state') : state.next.kind = state'.next.kind :=
  (pairs.alike h.next).kind

theorem skipInvalid (h : state.Abreast related state') :
    state.skipInvalid.Abreast related state'.skipInvalid := by
  obtain ⟨hrest, hinvalid⟩ := h.rest.splitInvalid pairs
  exact ⟨hrest, h.eof, h.ended, List.rel_append (List.rel_reverse hinvalid) h.reports,
    h.abandoned⟩

theorem expect (h : state.Abreast related state') (kind : Kind) (what : String) :
    f (state.expect kind what).1 = g (state'.expect kind what).1 ∧
      (state.expect kind what).1.text = (state'.expect kind what).1.text ∧
      (state.expect kind what).2.Abreast related (state'.expect kind what).2 := by
  have hskip := h.skipInvalid pairs
  have hnext := pairs.alike hskip.next
  unfold State.expect
  simp only [← hnext.kind]
  split
  · exact ⟨pairs.same hskip.next, hnext.text, hskip.advance⟩
  · exact ⟨pairs.empty, rfl, hskip.complain (hnext.expected what) hskip.next⟩

end State.Abreast

namespace Rule

variable {state state' : State} (pairs : Pairs related f g)

include pairs

theorem integer_parallel {whole whole' : Token} (hwhole : related whole whole') :
    ∀ {state state' : State}, state.Abreast related state' →
      (integer whole state).1.mapTokens f = (integer whole' state').1.mapTokens g ∧
        (integer whole state).2.Abreast related (integer whole' state').2 := by
  intro state state' h
  have halike := pairs.alike hwhole
  simp only [integer, ← halike.lexeme]
  split
  · refine ⟨?_, h.complain halike.tooLong hwhole⟩
    simp only [Expression.mapTokens, pairs.same hwhole, halike.tooLong]
  · exact ⟨by simp only [Expression.mapTokens, pairs.same hwhole], h⟩

-- `point` is the token before the next one and `whole` the one before that.
theorem real_parallel (h : state.Abreast related state')
    (hperiod : state.advance.next.kind = .period) :
    (real state.next state.advance.next state.advance.advance).1.mapTokens f =
        (real state'.next state'.advance.next state'.advance.advance).1.mapTokens g ∧
      (real state.next state.advance.next state.advance.advance).2.Abreast related
        (real state'.next state'.advance.next state'.advance.advance).2 := by
  have hwhole := pairs.alike h.next
  have hfraction := pairs.alike h.advance.advance.next
  have hmessage : Message.expectedFraction state.advance.advance.next =
      Message.expectedFraction state'.advance.advance.next :=
    hfraction.expected _
  simp only [real, ← hfraction.kind]
  split
  case isTrue hnumber =>
    -- both places that are compared touch the point, where the two texts agree
    have hfirst := h.touches (by rw [hperiod]; decide) (.inr hperiod)
    have hsecond := h.advance.touches (by rw [hnumber]; decide) (.inl hperiod)
    have htouching : touching state.next state.advance.next state.advance.advance.next =
        touching state'.next state'.advance.next state'.advance.advance.next := by
      unfold touching
      exact congrArg₂ _ (decide_eq_decide.mpr hfirst) (decide_eq_decide.mpr hsecond)
    rw [← htouching]
    refine ⟨?_, ?_⟩
    · simp only [Expression.mapTokens, pairs.same h.next, pairs.same h.advance.next,
        pairs.same h.advance.advance.next, hwhole.lexeme, hfraction.lexeme]
    · split
      · exact h.advance.advance.advance
      · exact h.advance.advance.advance.complain rfl h.next
  case isFalse =>
    refine ⟨?_, h.advance.advance.complain hmessage h.advance.advance.next⟩
    simp only [Expression.mapTokens, pairs.same h.advance.next, hmessage]

theorem number_parallel : number.Parallel related f g := by
  intro state state' h
  simp only [number, ← h.advance.kind pairs]
  split
  case isTrue hperiod => exact real_parallel pairs h hperiod
  case isFalse => exact integer_parallel pairs h.next h.advance

theorem missingOperand_parallel : missingOperand.Parallel related f g := by
  intro state state' h
  have hnext := pairs.alike h.next
  have hmessage : Message.expectedExpression state.next =
      Message.expectedExpression state'.next :=
    hnext.expected _
  have hcomplain := h.complain hmessage h.next
  simp only [missingOperand, ← hnext.kind]
  refine ⟨by simp only [Expression.mapTokens, pairs.same h.next, hmessage], ?_⟩
  split
  · exact hcomplain
  · exact hcomplain.advance

theorem tooDeep_parallel : tooDeep.Parallel related f g := by
  intro state state' h
  exact ⟨by simp only [tooDeep, Expression.mapTokens, pairs.same h.next],
    (h.complain rfl h.next).abandon⟩

section Operators

variable {isOperator : Kind → Bool} {operand : Rule}

theorem operators_parallel (hoperand : operand.Parallel related f g) (fuel : ℕ)
    {left left' : Expression} (hleft : left.mapTokens f = left'.mapTokens g)
    (h : state.Abreast related state') :
    (operators isOperator operand fuel left state).1.mapTokens f =
        (operators isOperator operand fuel left' state').1.mapTokens g ∧
      (operators isOperator operand fuel left state).2.Abreast related
        (operators isOperator operand fuel left' state').2 := by
  induction fuel generalizing left left' state state' with
  | zero => exact ⟨hleft, h⟩
  | succ fuel ih =>
    simp only [operators, ← h.kind pairs]
    split
    · obtain ⟨hright, hafter⟩ := hoperand h.advance
      refine ih ?_ hafter
      simp only [Expression.mapTokens, hleft, pairs.same h.next, hright]
    · exact ⟨hleft, h.look⟩

theorem chain_parallel (hoperand : operand.Parallel related f g) :
    (chain isOperator operand).Parallel related f g := by
  intro state state' h
  obtain ⟨hfirst, hafter⟩ := hoperand h
  simp only [chain, ← hafter.rest.length]
  exact operators_parallel pairs hoperand _ hfirst hafter

end Operators

section Nested

variable {nested : Rule} (hnested : nested.Parallel related f g)

include hnested

theorem primary_parallel : (primary nested).Parallel related f g := by
  intro state state' h
  have hnext := pairs.alike h.next
  simp only [primary, ← hnext.kind]
  split
  · exact number_parallel pairs h
  · exact ⟨by simp only [Expression.mapTokens, pairs.same h.next, hnext.text], h.advance⟩
  · obtain ⟨hinner, hafter⟩ := hnested h.advance
    exact ⟨hinner, (hafter.expect pairs _ _).2.2⟩
  · refine ⟨?_, h.advance.report (pairs.matches_invalidCharacter h.next)⟩
    simp only [Expression.mapTokens, pairs.same h.next, hnext.invalidCharacter]
  · exact missingOperand_parallel pairs h

theorem comparison_parallel : (comparison nested).Parallel related f g :=
  chain_parallel pairs (chain_parallel pairs (chain_parallel pairs
    (primary_parallel pairs hnested)))

theorem binding_parallel : (binding nested).Parallel related f g := by
  intro state state' h
  obtain ⟨hname, htext, hafterName⟩ :=
    h.advance.expect pairs .identifier "identifier after 'let'"
  obtain ⟨hequals, -, hafterEquals⟩ := hafterName.expect pairs .equals "'=' after let name"
  obtain ⟨hbody, hafter⟩ := hnested hafterEquals
  refine ⟨?_, hafter⟩
  simp only [binding, Expression.mapTokens, pairs.same h.next, hname, htext, hequals, hbody]

theorem conditional_parallel : (conditional nested).Parallel related f g := by
  intro state state' h
  obtain ⟨hcondition, hafterCondition⟩ := hnested h.advance
  obtain ⟨hthen, -, hafterThen⟩ := hafterCondition.expect pairs .thenWord "'then'"
  obtain ⟨hbody, hafterBody⟩ := hnested hafterThen
  simp only [conditional, ← hafterBody.kind pairs]
  split
  · obtain ⟨hotherwise, hafterOtherwise⟩ := hnested hafterBody.advance
    obtain ⟨hend, -, hafter⟩ := hafterOtherwise.expect pairs .endWord "'end'"
    refine ⟨?_, hafter⟩
    simp only [Expression.mapTokens, pairs.same h.next, hcondition, hthen, hbody,
      pairs.same hafterBody.next, hotherwise, hend]
  · obtain ⟨hend, -, hafter⟩ := hafterBody.expect pairs .endWord "'end'"
    refine ⟨?_, hafter⟩
    simp only [Expression.mapTokens, pairs.same h.next, hcondition, hthen, hbody, hend,
      pairs.empty]

end Nested

theorem expression_parallel (levels : ℕ) : (expression levels).Parallel related f g := by
  induction levels with
  | zero => exact tooDeep_parallel pairs
  | succ levels ih =>
    intro state state' h
    simp only [expression, ← h.kind pairs]
    split
    · exact binding_parallel pairs ih h
    · exact conditional_parallel pairs ih h
    · exact comparison_parallel pairs ih h

end Rule

namespace State.Abreast

variable {state state' : State} (pairs : Pairs related f g)

include pairs

theorem takeExpression (h : state.Abreast related state') :
    state.takeExpression.1.mapTokens f = state'.takeExpression.1.mapTokens g ∧
      state.takeExpression.2.Abreast related state'.takeExpression.2 := by
  have hfresh : State.Abreast related { state with abandoned := false }
      { state' with abandoned := false } :=
    ⟨h.rest, h.eof, h.ended, h.reports, rfl⟩
  obtain ⟨hread, hafter⟩ := Rule.expression_parallel pairs maxNesting hfresh
  simp only [State.takeExpression, ← h.rest.length, ← hafter.rest.length]
  split
  · refine ⟨hread, ?_⟩
    simp only [List.isEmpty_iff, ← List.length_eq_zero_iff, ← hafter.rest.length]
    split
    · exact hafter.look
    · exact hafter.advance
  · exact ⟨hread, hafter⟩

theorem expectEnd (h : state.Abreast related state') :
    state.expectEnd.Abreast related state'.expectEnd := by
  refine ⟨.nil, h.eof, h.ended, List.rel_append (List.rel_reverse ?_) h.reports, h.abandoned⟩
  rw [← h.abandoned]
  exact h.rest.leftOver pairs state.abandoned

end State.Abreast

end Parser

namespace Reading

-- From tokens abreast, one expression is read, and the same is said about it.
theorem ofTokens_abreast (pairs : Pairs related f g) {tokens tokens' : List Token}
    {eof eof' : Token} (h : Abreast related tokens tokens') (heof : related eof eof')
    (hended : eof.kind = .eof) :
    (ofTokens tokens eof).expression.mapTokens f =
        (ofTokens tokens' eof').expression.mapTokens g ∧
      List.Forall₂ (Diagnostic.Matches related) (ofTokens tokens eof).diagnostics
        (ofTokens tokens' eof').diagnostics := by
  have hstart : State.Abreast related { rest := tokens, eof } { rest := tokens', eof := eof' } :=
    ⟨h, heof, hended, .nil, rfl⟩
  obtain ⟨hread, hafter⟩ := hstart.takeExpression pairs
  exact ⟨hread, List.rel_reverse (hafter.expectEnd pairs).reports⟩

-- Tokens that all move the same way are read as an expression that moves that way.
theorem ofTokens_moved {move : Span → Span} (hmove : Span.Rigid move) {tokens : List Token}
    {eof : Token} (htokens : ∀ token ∈ tokens, token.kind ≠ .empty) (heof : eof.kind = .eof) :
    (ofTokens (tokens.map (Token.moved move)) (eof.moved move)).expression =
        (ofTokens tokens eof).expression.moved move ∧
      (ofTokens (tokens.map (Token.moved move)) (eof.moved move)).diagnostics.length =
        (ofTokens tokens eof).diagnostics.length := by
  let related (token token' : Token) : Prop := token.kind ≠ .empty ∧ token' = token.moved move
  have hpairs : Pairs related (Token.moved move) id := by
    refine ⟨?_, fun h => h.2.symm, rfl⟩
    rintro token _ ⟨hkind, rfl⟩
    refine ⟨(token.kind_moved move).symm, (token.text_moved move).symm, ?_⟩
    rw [Token.moved_of_kind move hkind]
    exact (hmove.length token.span).symm
  have habreast : Abreast related tokens (tokens.map (Token.moved move)) := by
    refine .self_map (fun token htoken => ⟨htokens token htoken, rfl⟩) ?_
    intro first hfirst second hsecond
    rw [Token.moved_of_kind move (htokens first hfirst),
      Token.moved_of_kind move (htokens second hsecond)]
    exact (hmove.touching first.span second.span).symm
  have hrelated : related eof (eof.moved move) := ⟨by rw [heof]; decide, rfl⟩
  obtain ⟨hexpression, hdiagnostics⟩ := ofTokens_abreast hpairs habreast hrelated heof
  rw [Expression.mapTokens_id] at hexpression
  exact ⟨hexpression.symm, hdiagnostics.length_eq.symm⟩

end Reading

end Calculator
