import Calculator.Proofs.Compiling.Meaning
import Calculator.Proofs.Parsing.Frontier
import Calculator.Proofs.Parsing.Heights

namespace Calculator

open Grammar

-- That what a symbol is read as can be compiled.
def Grammar.Compilable : (symbol : Symbol) → Meaning symbol → Prop
  | .one _, expression => Expression.Compilable expression
  | .many _, steps => ∀ step ∈ steps, step.1.kind.isBinary = true ∧ step.2.Compilable

-- A whole number is written in digits.
def Token.WellWritten (token : Token) : Prop :=
  token.kind = .number → ∀ c ∈ (token.text.getD "").toList, Text.isDecimalDigit c = true

theorem Token.Fits.wellWritten {token : Token} {text : List Char} {file : String}
    (h : token.Fits text file) : token.WellWritten := by
  intro hnumber
  obtain ⟨written, hwritten, hspells⟩ := h.exists_text (by rw [hnumber]; rfl)
  rw [hnumber] at hspells
  rw [hwritten]
  intro c hc
  exact Option.isSome_iff_exists.mpr ⟨_, Text.digit?_of_isDigit (hspells.isDigit c hc)⟩

namespace Expression

theorem compilable_foldl {first : Expression} {steps : List (Token × Expression)}
    (hfirst : first.Compilable)
    (hsteps : ∀ step ∈ steps, step.1.kind.isBinary = true ∧ step.2.Compilable) :
    (steps.foldl (fun left step => Expression.binary left step.1 step.2) first).Compilable := by
  induction steps generalizing first with
  | nil => exact hfirst
  | cons step rest ih =>
    obtain ⟨⟨hbinary, hstep⟩, hrest⟩ := List.forall_mem_cons.mp hsteps
    exact ih ⟨hfirst, hbinary, hstep⟩ hrest

end Expression

theorem Grammar.Derivation.compilable {symbol : Symbol} (d : Derivation symbol)
    (h : ∀ token ∈ d.tokens, token.WellWritten) : Compilable symbol d.tree := by
  induction d with
  | binding letToken name equals body isLet isName isEquals ih =>
    simp only [tokens, List.forall_mem_cons] at h
    exact ih h.2.2.2
  | ifThen ifToken condition thenToken body endToken isIf isThen isEnd ihCondition ihBody =>
    simp only [tokens, List.forall_mem_cons, List.forall_mem_append] at h
    exact ⟨ihCondition h.2.1, ihBody h.2.2.2.1⟩
  | ifThenElse ifToken condition thenToken body elseToken otherwise endToken isIf isThen isElse
      isEnd ihCondition ihBody ihOtherwise =>
    simp only [tokens, List.forall_mem_cons, List.forall_mem_append] at h
    exact ⟨ihCondition h.2.1, ihBody h.2.2.2.1, ihOtherwise h.2.2.2.2.2.1⟩
  | comparison operands ih => exact ih h
  | chain first rest ihFirst ihRest =>
    simp only [tokens, List.forall_mem_append] at h
    exact Expression.compilable_foldl (ihFirst h.1) (ihRest h.2)
  | nothing =>
    intro step hstep
    cases hstep
  | more operator operand rest isOperator ihOperand ihRest =>
    simp only [tokens, List.forall_mem_cons, List.forall_mem_append] at h
    exact List.forall_mem_cons.mpr
      ⟨⟨Level.isBinary_of_holds isOperator, ihOperand h.2.1⟩, ihRest h.2.2⟩
  | literal number ih => exact ih h
  | reference name isName => trivial
  | group left inner right isLeft isRight ih =>
    simp only [tokens, List.forall_mem_cons, List.forall_mem_append] at h
    exact ih h.2.1
  | integer digits isDigits => exact h digits List.mem_cons_self isDigits
  | real whole point fraction isWhole isPoint isFraction => trivial

namespace Expression

theorem Walk.Clean.join {walks : List (Walk Expression)} (h : ∀ walk ∈ walks, walk.Clean) :
    (Walk.join walks).Clean := by
  induction walks with
  | nil => exact ⟨rfl, by simp [Walk.join, Walk.nothing]⟩
  | cons walk rest ih =>
    obtain ⟨hwalk, hrest⟩ := List.forall_mem_cons.mp h
    obtain ⟨hforeign, hplain⟩ := hwalk
    have hjoin : Walk.join (walk :: rest) =
        ⟨walk.visited ++ (Walk.join rest).visited, (Walk.join rest).foreign⟩ := by
      have hcons : Walk.join (walk :: rest) = walk.before (Walk.join rest) := rfl
      rw [hcons, Walk.before, hforeign]
    rw [hjoin]
    exact ⟨(ih hrest).foreign, List.forall_mem_append.mpr ⟨hplain, (ih hrest).plain⟩⟩

theorem clean_of_plain {node : Expression} (h : node.Plain) : Walk.Clean ⟨[node], none⟩ :=
  ⟨rfl, by simpa using h⟩

theorem clean_of_compilable {expression : Expression} (h : expression.Compilable) :
    expression.preorder.Clean := by
  induction expression with
  | integer token value =>
    refine clean_of_plain ⟨rfl, ?_⟩
    rintro _ _ ⟨⟩
    exact h
  | real whole point fraction value => exact clean_of_plain ⟨rfl, by rintro _ _ ⟨⟩⟩
  | reference token name => exact clean_of_plain ⟨rfl, by rintro _ _ ⟨⟩⟩
  | binary left operator right ihLeft ihRight =>
    obtain ⟨hleft, hbinary, hright⟩ := h
    refine Walk.Clean.join ?_
    simp only [List.forall_mem_cons]
    exact ⟨clean_of_plain ⟨by simp [fault?, hbinary], by rintro _ _ ⟨⟩⟩, ihLeft hleft,
      ihRight hright, by simp⟩
  | ifThen ifToken condition thenToken body endToken elseToken ihCondition ihBody =>
    refine Walk.Clean.join ?_
    simp only [List.forall_mem_cons]
    exact ⟨clean_of_plain ⟨rfl, by rintro _ _ ⟨⟩⟩, ihCondition h.1, ihBody h.2, by simp⟩
  | ifThenElse ifToken condition thenToken body elseToken otherwise endToken ihCondition ihBody
      ihOtherwise =>
    refine Walk.Clean.join ?_
    simp only [List.forall_mem_cons]
    exact ⟨clean_of_plain ⟨rfl, by rintro _ _ ⟨⟩⟩, ihCondition h.1, ihBody h.2.1,
      ihOtherwise h.2.2, by simp⟩
  | binding letToken nameToken name equals body ih =>
    refine Walk.Clean.join ?_
    simp only [List.forall_mem_cons]
    exact ⟨clean_of_plain ⟨rfl, by rintro _ _ ⟨⟩⟩, ih h, by simp⟩
  | erroneous token message => cases h
  | foreign sort => cases h

theorem checkComplete_of_clean {expression : Expression} (hclean : expression.nodeWalk.Clean)
    (hpresent : ∀ token ∈ expression.tokenWalk.visited, token.isEmpty = false) :
    expression.checkComplete = .ok () := by
  have hfault : expression.nodeWalk.visited.findSome? fault? = none :=
    List.findSome?_eq_none_iff.mpr fun node hnode => (hclean.plain node hnode).fault
  have hmissing : expression.tokenWalk.visited.any Token.isEmpty = false := by
    simpa [List.any_eq_false] using hpresent
  simp [checkComplete, hfault, hclean.foreign, hmissing]

-- An expression that the compiler has nothing against if its height is limited like this.
structure Ready (limit : Nat) (expression : Expression) : Prop where
  compilable : expression.Compilable
  nodes : expression.nodeWalk.Clean
  tokens : ∀ token ∈ expression.tokenWalk.visited, token.isEmpty = false
  height : expression.height ≤ limit

end Expression

-- What is read without a diagnostic is complete.
theorem Reading.ready_of_clean {source : Source} {file : String}
    (h : (ofSource source file).diagnostics = []) {limit : Nat} (hlimit : maxHeight ≤ limit) :
    (ofSource source file).expression.Ready limit := by
  have htiles := Lexer.drain_tiles { source, file } rfl
  obtain ⟨d, hd, htree⟩ := derivation_of_clean h
  have hwritten : ∀ token ∈ d.tokens, token.WellWritten := by
    rw [hd.tokens]
    exact fun token htoken => (htiles.fits [] rfl token htoken).wellWritten
  have hcompilable : Expression.Compilable (ofSource source file).expression := by
    rw [htree]
    exact d.compilable hwritten
  refine ⟨hcompilable, ?_, ?_, Nat.le_trans (height_le source file) hlimit⟩
  · rw [Expression.nodeWalk_eq]
    exact Expression.clean_of_compilable hcompilable
  · have hgenuine : Expression.Genuine (ofSource source file).expression :=
      (reads source file).genuine
    have hfrontier : Expression.frontier (fun token => [token]) d.tree =
        d.tokens.filter fun token => !token.isParenthesis := d.fringe_tree fun token => [token]
    rw [Expression.tokenWalk_eq, Expression.leaves_of_genuine hgenuine, htree]
    dsimp only
    rw [hfrontier, hd.tokens]
    intro token htoken
    have hkind := (htiles.kind_ne token (List.mem_filter.mp htoken).1).2
    simp [Token.isEmpty, hkind]

theorem Reading.ready_ofString {text : String} (h : (ofString text).diagnostics = []) :
    (ofString text).expression.Ready maxHeight :=
  ready_of_clean h (Nat.le_refl _)

-- Whether there is an `if` without `else` in an expression.
def Expression.lacksElse : Expression → Bool
  | binary left _ right => left.lacksElse || right.lacksElse
  | ifThen .. => true
  | ifThenElse _ condition _ body _ otherwise _ =>
    condition.lacksElse || body.lacksElse || otherwise.lacksElse
  | binding _ _ _ _ body => body.lacksElse
  | integer .. | real .. | reference .. | erroneous .. | foreign _ => false

namespace Compiler

variable {settings : Settings} {expression : Expression} {limit : Nat}

-- How making a chain ends: it is refused for want of a value for false conditions, or made.
def Settles (lacking : Bool) (made : Except CompileError Chain) : Prop :=
  if lacking then made = .error .valueTooLarge else ∃ chain, made = .ok chain

namespace Settles

variable {lacking lacking' : Bool} {made : Except CompileError Chain}
  {next : Chain → Except CompileError Chain}

theorem done (chain : Chain) : Settles false (.ok chain) := ⟨chain, rfl⟩

theorem refused : Settles true (.error .valueTooLarge) := rfl

theorem bind (h : Settles lacking made) (hnext : ∀ chain, Settles lacking' (next chain)) :
    Settles (lacking || lacking') (made >>= next) := by
  cases lacking with
  | true =>
    have hrefused : made = .error .valueTooLarge := h
    rw [hrefused]
    exact rfl
  | false =>
    obtain ⟨chain, hchain⟩ := h
    rw [hchain]
    exact hnext chain

end Settles

-- Without a value for false conditions just the expressions that need it are refused.
theorem chain_settles (hnone : settings.falseValue.toFloat? = none) (h : expression.Compilable) :
    Settles expression.lacksElse (chain settings expression) := by
  induction expression with
  | integer token value =>
    rw [chain, wholeValue_of_digits h]
    exact .done _
  | real whole point fraction value => exact .done _
  | reference token name => exact .done _
  | binary left operator right ihLeft ihRight =>
    obtain ⟨hleft, hbinary, hright⟩ := h
    rw [← Operator.isSome_ofKind?] at hbinary
    obtain ⟨operation, hoperation⟩ := Option.isSome_iff_exists.mp hbinary
    have hsteps := (ihLeft hleft).bind fun leftMade =>
      (ihRight hright).bind fun rightMade => .done (leftMade.step
        (fun x y => operation.apply settings.divisionByZero operator.span x y) rightMade.program)
    rw [Bool.or_false] at hsteps
    simp only [chain, hoperation]
    exact hsteps
  | ifThen ifToken condition thenToken body endToken elseToken ihCondition ihBody =>
    have hparts := (ihCondition h.1).bind fun conditionMade =>
      (ihBody h.2).bind fun bodyMade => .refused
    rw [Bool.or_true, Bool.or_true] at hparts
    rw [chain, otherwiseProgram, hnone]
    exact hparts
  | ifThenElse ifToken condition thenToken body elseToken otherwise endToken ihCondition ihBody
      ihOtherwise =>
    have hparts := (ihCondition h.1).bind fun conditionMade => (ihBody h.2.1).bind fun bodyMade =>
      (ihOtherwise h.2.2).bind fun otherMade => .done
        { first := .branch conditionMade.program bodyMade.program otherMade.program }
    rw [Bool.or_false, ← Bool.or_assoc] at hparts
    exact hparts
  | binding letToken nameToken name equals body ih =>
    have hbody := (ih h).bind fun bodyMade => .done { first := .bindName name bodyMade.program }
    rw [Bool.or_false] at hbody
    exact hbody
  | erroneous token message => cases h
  | foreign sort => cases h

theorem generate_eq_compile (settings : Settings) (h : expression.Ready limit) :
    generate limit settings expression = compile settings expression := by
  have hheight : ¬limit < expression.height := Nat.not_lt.mpr h.height
  rw [generate, Expression.checkComplete_of_clean h.nodes h.tokens]
  simp [hheight, bind, Except.bind]

theorem compile_of_generate {program : Program}
    (h : generate limit settings expression = .ok program) :
    compile settings expression = .ok program := by
  rw [generate] at h
  cases hcheck : expression.checkComplete with
  | error error =>
    rw [hcheck] at h
    cases h
  | ok =>
    rw [hcheck] at h
    by_cases hheight : limit < expression.height
    · simp [hheight, bind, Except.bind] at h
    · simpa [hheight, bind, Except.bind] using h

-- An expression with nothing against it is refused just if it needs a value for false conditions
-- and there is none.
theorem generate_of_ready (settings : Settings) (h : expression.Ready limit) :
    (settings.falseValue.toFloat? = none ∧ expression.lacksElse = true →
      generate limit settings expression = .error .valueTooLarge) ∧
    (¬(settings.falseValue.toFloat? = none ∧ expression.lacksElse = true) →
      ∃ program, generate limit settings expression = .ok program) := by
  rw [generate_eq_compile settings h, compile]
  cases hvalue : settings.falseValue.toFloat? with
  | some otherwise =>
    obtain ⟨made, hmade, _⟩ := chain_means hvalue h.compilable
    rw [hmade]
    exact ⟨by simp, fun _ => ⟨made.program, rfl⟩⟩
  | none =>
    have hsettles := chain_settles hvalue h.compilable
    cases hlacks : expression.lacksElse with
    | true =>
      rw [hlacks] at hsettles
      have hrefused : chain settings expression = .error .valueTooLarge := hsettles
      rw [hrefused]
      exact ⟨fun _ => rfl, by simp⟩
    | false =>
      rw [hlacks] at hsettles
      obtain ⟨made, hmade⟩ := hsettles
      rw [hmade]
      exact ⟨by simp, fun _ => ⟨made.program, rfl⟩⟩

theorem eq_valueTooLarge_of_ready (h : expression.Ready limit) {error : CompileError}
    (herror : generate limit settings expression = .error error) : error = .valueTooLarge := by
  obtain ⟨hrefused, hmade⟩ := generate_of_ready settings h
  by_cases hoverflow : settings.falseValue.toFloat? = none ∧ expression.lacksElse = true
  · rw [hrefused hoverflow] at herror
    cases herror
    rfl
  · obtain ⟨program, hprogram⟩ := hmade hoverflow
    rw [hprogram] at herror
    cases herror

end Compiler

end Calculator
