import Mathlib.Data.List.Basic
import Calculator.Proofs.Compiling.Digits
import Calculator.Proofs.Trees.Walks

namespace Calculator

-- The bindings of an environment that are not hidden.
def Environment.store (environment : Environment Float) : Store := fun name =>
  environment.find? name

theorem Environment.store_define (environment : Environment Float) (name : String) (value : Float) :
    (environment.define name value).store = environment.store.bind name value := by
  funext other
  unfold store Store.bind
  split
  · subst other
    exact find?_define_self name value environment
  · exact find?_define_of_ne value environment ‹_›

namespace Program

-- What a run of a program shows of itself.
def answer : EStateM.Result EvaluationError (Environment Float) Float → Answer
  | .ok value environment => .ok (value, environment.store)
  | .error error _ => .error error

theorem runSteps_append (value : Float) (environment : Environment Float)
    (first second : List Step) :
    runSteps value environment (first ++ second) =
      match runSteps value environment first with
      | .ok value environment => runSteps value environment second
      | .error error environment => .error error environment := by
  induction first generalizing value environment with
  | nil => rfl
  | cons step rest ih =>
    simp only [List.cons_append, runSteps]
    split
    · rfl
    · split
      · rfl
      · exact ih _ _

end Program

namespace Chain

theorem program_first (first : Program) : ({ first } : Chain).program = first := by
  funext environment
  simp only [program, List.reverse_nil, Program.sequence]
  cases first environment <;> rfl

theorem program_step (chain : Chain) (operation : Float → Float → Except EvaluationError Float)
    (right : Program) (environment : Environment Float) :
    (chain.step operation right).program environment =
      match chain.program environment with
      | .error error environment => .error error environment
      | .ok value environment =>
        match right environment with
        | .error error environment => .error error environment
        | .ok operand environment =>
          match operation value operand with
          | .error error => .error error environment
          | .ok value => .ok value environment := by
  simp only [program, step, List.reverse_cons, Program.sequence]
  cases chain.first environment with
  | error error environment => rfl
  | ok value environment =>
    simp only [Program.runSteps_append]
    cases Program.runSteps value environment chain.steps.reverse with
    | error error environment => rfl
    | ok value environment => rfl

end Chain

theorem Operator.quotient_operates {policy : DivisionPolicy} {token : Token}
    (h : token.kind = .slash) (x y : Float) :
    Operates policy token x y (quotient policy token.span x y) := by
  unfold quotient
  split
  · rename_i hzero
    cases policy with
    | error => exact .refused h hzero rfl
    | ieee =>
      unfold divideByZero
      dsimp only
      split
      · exact .undefined h hzero rfl ‹_›
      · exact .infinite h hzero rfl (Bool.eq_false_iff.mpr ‹_›)
  · exact .quotient h (Bool.eq_false_iff.mpr ‹_›)

theorem Operator.operates {policy : DivisionPolicy} {token : Token} {operator : Operator}
    (h : ofKind? token.kind = some operator) (x y : Float) :
    Operates policy token x y (operator.apply policy token.span x y) := by
  unfold ofKind? at h
  split at h <;> cases h
  · exact .sum ‹_›
  · exact .difference ‹_›
  · exact .product ‹_›
  · exact quotient_operates ‹_› x y
  · exact .less ‹_›
  · exact .lessEqual ‹_›
  · exact .greater ‹_›
  · exact .greaterEqual ‹_›
  · exact .equal ‹_›

-- That a program computes what an expression means.
def Means (policy : DivisionPolicy) (otherwise : Float) (expression : Expression)
    (program : Program) : Prop :=
  ∀ environment, Evaluates policy otherwise expression environment.store
    (Program.answer (program environment))

namespace Means

variable {policy : DivisionPolicy} {otherwise : Float}

theorem binary {left right : Expression} {token : Token} {chain rightChain : Chain}
    {operator : Operator} (hoperator : Operator.ofKind? token.kind = some operator)
    (hleft : Means policy otherwise left chain.program)
    (hright : Means policy otherwise right rightChain.program) :
    Means policy otherwise (.binary left token right)
      (chain.step (fun x y => operator.apply policy token.span x y)
        rightChain.program).program := by
  intro environment
  rw [Chain.program_step]
  have hfirst := hleft environment
  cases hx : chain.program environment with
  | error error middle =>
    rw [hx] at hfirst
    exact .leftFails hfirst
  | ok x middle =>
    rw [hx] at hfirst
    have hsecond := hright middle
    dsimp only
    cases hy : rightChain.program middle with
    | error error after =>
      rw [hy] at hsecond
      exact .rightFails hfirst hsecond
    | ok y after =>
      rw [hy] at hsecond
      have hresult : Operates policy token x y _ := Operator.operates hoperator x y
      dsimp only
      cases hz : operator.apply policy token.span x y with
      | error error =>
        rw [hz] at hresult
        exact .operatorFails hfirst hsecond hresult
      | ok z =>
        rw [hz] at hresult
        exact .binary hfirst hsecond hresult

theorem ifThen {ifToken thenToken endToken elseToken : Token} {condition body : Expression}
    {conditionProgram bodyProgram : Program}
    (hcondition : Means policy otherwise condition conditionProgram)
    (hbody : Means policy otherwise body bodyProgram) :
    Means policy otherwise (.ifThen ifToken condition thenToken body endToken elseToken)
      (Program.branch conditionProgram bodyProgram (.constant otherwise)) := by
  intro environment
  have hfirst := hcondition environment
  unfold Program.branch
  cases hx : conditionProgram environment with
  | error error middle =>
    rw [hx] at hfirst
    exact .ifFails hfirst
  | ok x middle =>
    rw [hx] at hfirst
    dsimp only
    split
    · exact .ifFalse hfirst ‹_›
    · exact .ifTrue hfirst (Bool.eq_false_iff.mpr ‹_›) (hbody middle)

theorem ifThenElse {ifToken thenToken elseToken endToken : Token}
    {condition body other : Expression} {conditionProgram bodyProgram otherProgram : Program}
    (hcondition : Means policy otherwise condition conditionProgram)
    (hbody : Means policy otherwise body bodyProgram)
    (hother : Means policy otherwise other otherProgram) :
    Means policy otherwise (.ifThenElse ifToken condition thenToken body elseToken other endToken)
      (Program.branch conditionProgram bodyProgram otherProgram) := by
  intro environment
  have hfirst := hcondition environment
  unfold Program.branch
  cases hx : conditionProgram environment with
  | error error middle =>
    rw [hx] at hfirst
    exact .elseFails hfirst
  | ok x middle =>
    rw [hx] at hfirst
    dsimp only
    split
    · exact .elseFalse hfirst ‹_› (hother middle)
    · exact .thenTrue hfirst (Bool.eq_false_iff.mpr ‹_›) (hbody middle)

theorem binding {letToken nameToken equals : Token} {name : String} {body : Expression}
    {program : Program} (hbody : Means policy otherwise body program) :
    Means policy otherwise (.binding letToken nameToken name equals body)
      (Program.bindName name program) := by
  intro environment
  have hvalue := hbody environment
  unfold Program.bindName
  cases hx : program environment with
  | error error after =>
    rw [hx] at hvalue
    exact .bindingFails hvalue
  | ok value after =>
    rw [hx] at hvalue
    dsimp only [Program.answer]
    rw [Environment.store_define]
    exact .binding hvalue

theorem reference (token : Token) (name : String) :
    Means policy otherwise (.reference token name) (Program.reference name token.span) := by
  intro environment
  unfold Program.reference Environment.get
  cases hname : environment.find? name with
  | none => exact .unbound hname
  | some value => exact .reference hname

end Means

-- An expression without foreign values and faults, whose whole numbers are written in digits.
def Expression.Compilable : Expression → Prop
  | integer token _ => ∀ c ∈ (token.text.getD "").toList, Text.isDecimalDigit c = true
  | real .. | reference .. => True
  | binary left operator right =>
    left.Compilable ∧ operator.kind.isBinary = true ∧ right.Compilable
  | ifThen _ condition _ body _ _ => condition.Compilable ∧ body.Compilable
  | ifThenElse _ condition _ body _ other _ =>
    condition.Compilable ∧ body.Compilable ∧ other.Compilable
  | binding _ _ _ _ body => body.Compilable
  | erroneous .. | foreign _ => False

-- A node without a fault of its own, written in digits if it is a whole number.
structure Expression.Plain (node : Expression) : Prop where
  fault : node.fault? = none
  digits : ∀ token value, node = integer token value →
    ∀ c ∈ (token.text.getD "").toList, Text.isDecimalDigit c = true

namespace Expression

-- A walk to its end over plain nodes.
structure Walk.Clean (walk : Walk Expression) : Prop where
  foreign : walk.foreign = none
  plain : ∀ node ∈ walk.visited, node.Plain

theorem Walk.Clean.of_join {walks : List (Walk Expression)} (h : (Walk.join walks).Clean) :
    ∀ walk ∈ walks, walk.Clean := by
  intro walk hwalk
  obtain ⟨hforeign, hvisited⟩ := Walk.of_join h.foreign walk hwalk
  exact ⟨hforeign, fun node hnode => h.plain node (hvisited node hnode)⟩

theorem compilable_of_clean {expression : Expression} (h : expression.preorder.Clean) :
    expression.Compilable := by
  induction expression with
  | integer token value => exact (h.plain _ List.mem_cons_self).digits token value rfl
  | real whole point fraction value => trivial
  | reference token name => trivial
  | binary left operator right ihLeft ihRight =>
    have hparts := Walk.Clean.of_join h
    have hself := ((hparts _ List.mem_cons_self).plain _ List.mem_cons_self).fault
    refine ⟨ihLeft (hparts _ (by simp)), ?_, ihRight (hparts _ (by simp))⟩
    simpa [fault?] using hself
  | ifThen ifToken condition thenToken body endToken elseToken ihCondition ihBody =>
    have hparts := Walk.Clean.of_join h
    exact ⟨ihCondition (hparts _ (by simp)), ihBody (hparts _ (by simp))⟩
  | ifThenElse ifToken condition thenToken body elseToken other endToken ihCondition ihBody
      ihOther =>
    have hparts := Walk.Clean.of_join h
    exact ⟨ihCondition (hparts _ (by simp)), ihBody (hparts _ (by simp)),
      ihOther (hparts _ (by simp))⟩
  | binding letToken nameToken name equals body ih =>
    exact ih (Walk.Clean.of_join h _ (by simp))
  | erroneous token message => cases (h.plain _ List.mem_cons_self).fault
  | foreign sort => cases h.foreign

-- What the check for completeness refuses is not there.
theorem compilable_of_checkComplete {expression : Expression}
    (h : expression.checkComplete = .ok ())
    (hdigits : ∀ token value, integer token value ∈ expression.nodeWalk.visited →
      ∀ c ∈ (token.text.getD "").toList, Text.isDecimalDigit c = true) :
    expression.Compilable := by
  unfold checkComplete at h
  dsimp only at h
  split at h
  · cases h
  · rename_i hfault
    split at h
    · cases h
    · rename_i hforeign
      rw [List.findSome?_eq_none_iff] at hfault
      rw [nodeWalk_eq] at hfault hforeign hdigits
      refine compilable_of_clean ⟨hforeign, fun node hnode => ⟨hfault node hnode, ?_⟩⟩
      rintro token value rfl
      exact hdigits token value hnode

end Expression

namespace Compiler

variable {settings : Settings} {otherwise : Float}

theorem chain_means (hotherwise : settings.falseValue.toFloat? = some otherwise)
    {expression : Expression} (h : expression.Compilable) :
    ∃ made, chain settings expression = .ok made ∧
      Means settings.divisionByZero otherwise expression made.program := by
  induction expression with
  | integer token value =>
    refine ⟨{ first := .constant token.whole }, ?_, fun environment => .integer⟩
    rw [chain, wholeValue_of_digits h]
    rfl
  | real whole point fraction value =>
    exact ⟨{ first := .constant value }, rfl, fun environment => .real⟩
  | reference token name =>
    refine ⟨{ first := .reference name token.span }, rfl, ?_⟩
    rw [Chain.program_first]
    exact .reference token name
  | binary left operator right ihLeft ihRight =>
    obtain ⟨hleft, hbinary, hright⟩ := h
    obtain ⟨leftMade, hleftMade, hleftMeans⟩ := ihLeft hleft
    obtain ⟨rightMade, hrightMade, hrightMeans⟩ := ihRight hright
    rw [← Operator.isSome_ofKind?] at hbinary
    obtain ⟨operation, hoperation⟩ := Option.isSome_iff_exists.mp hbinary
    refine ⟨_, ?_, hleftMeans.binary hoperation hrightMeans⟩
    rw [chain, hleftMade]
    simp only [hoperation, hrightMade]
    rfl
  | ifThen ifToken condition thenToken body endToken elseToken ihCondition ihBody =>
    obtain ⟨conditionMade, hconditionMade, hconditionMeans⟩ := ihCondition h.1
    obtain ⟨bodyMade, hbodyMade, hbodyMeans⟩ := ihBody h.2
    refine ⟨{ first := .branch conditionMade.program bodyMade.program (.constant otherwise) },
      ?_, ?_⟩
    · rw [chain, hconditionMade, hbodyMade, otherwiseProgram, hotherwise]
      rfl
    · rw [Chain.program_first]
      exact hconditionMeans.ifThen hbodyMeans
  | ifThenElse ifToken condition thenToken body elseToken other endToken ihCondition ihBody
      ihOther =>
    obtain ⟨conditionMade, hconditionMade, hconditionMeans⟩ := ihCondition h.1
    obtain ⟨bodyMade, hbodyMade, hbodyMeans⟩ := ihBody h.2.1
    obtain ⟨otherMade, hotherMade, hotherMeans⟩ := ihOther h.2.2
    refine ⟨{ first := .branch conditionMade.program bodyMade.program otherMade.program }, ?_, ?_⟩
    · rw [chain, hconditionMade, hbodyMade, hotherMade]
      rfl
    · rw [Chain.program_first]
      exact hconditionMeans.ifThenElse hbodyMeans hotherMeans
  | binding letToken nameToken name equals body ih =>
    obtain ⟨bodyMade, hbodyMade, hbodyMeans⟩ := ih h
    refine ⟨{ first := .bindName name bodyMade.program }, ?_, ?_⟩
    · rw [chain, hbodyMade]
      rfl
    · rw [Chain.program_first]
      exact hbodyMeans.binding
  | erroneous token message => cases h
  | foreign sort => cases h

end Compiler

-- A complete expression has a program. From any bindings the program yields just what the
-- expression means, a value with the bindings after it or an error.
theorem compile_preserves_meaning (settings : Settings) (expression : Expression)
    (otherwise : Float) (hcomplete : expression.checkComplete = .ok ())
    (hdigits : ∀ token value, Expression.integer token value ∈ expression.nodeWalk.visited →
      ∀ c ∈ (token.text.getD "").toList, Text.isDecimalDigit c = true)
    (hotherwise : settings.falseValue.toFloat? = some otherwise) :
    ∃ program, Compiler.compile settings expression = .ok program ∧
      ∀ (environment : Environment Float) (answer : Answer),
        Evaluates settings.divisionByZero otherwise expression environment.store answer ↔
          answer = Program.answer (program environment) := by
  obtain ⟨made, hmade, hmeans⟩ :=
    Compiler.chain_means hotherwise (Expression.compilable_of_checkComplete hcomplete hdigits)
  refine ⟨made.program, ?_, fun environment answer => ⟨fun h => ?_, ?_⟩⟩
  · rw [Compiler.compile, hmade]
    rfl
  · exact h.functional (hmeans environment)
  · rintro rfl
    exact hmeans environment

theorem compile_preserves_difference :
    let digit : Token := ⟨.number, ⟨1, 1, 0, 1, "f"⟩, some "7"⟩
    let minus : Token := ⟨.minus, ⟨1, 2, 1, 1, "f"⟩, none⟩
    let name : Token := ⟨.identifier, ⟨1, 3, 2, 1, "f"⟩, some "x"⟩
    let difference : Expression := .binary (.integer digit 7) minus (.reference name "x")
    ∃ program, Compiler.compile {} difference = .ok program ∧
      Program.answer (program {}) = .error (.undefined "x" (some name.span)) := by
  intro digit minus name difference
  have hdigits : ∀ token value, Expression.integer token value ∈ difference.nodeWalk.visited →
      ∀ c ∈ (token.text.getD "").toList, Text.isDecimalDigit c = true := by
    have hvisited : difference.nodeWalk.visited =
        [difference, .integer digit 7, .reference name "x"] := by
      rw [Expression.nodeWalk_eq]
      rfl
    have htext : (digit.text.getD "").toList = ['7'] := by decide
    intro token value hnode c hc
    rw [hvisited] at hnode
    simp only [List.mem_cons, List.not_mem_nil, difference, reduceCtorEq, false_or, or_false,
      Expression.integer.injEq] at hnode
    rw [hnode.1, htext, List.mem_singleton] at hc
    rw [hc]
    decide
  obtain ⟨program, hprogram, hmeans⟩ :=
    compile_preserves_meaning {} difference Decimal.zero (by cbv) hdigits rfl
  refine ⟨program, hprogram, ?_⟩
  have hanswer := (hmeans {} (.error (.undefined "x" (some name.span)))).mp
    (.rightFails .integer (.unbound rfl))
  exact hanswer.symm

end Calculator
