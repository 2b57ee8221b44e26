import Calculator.Proofs.Compiling.Meaning
import Calculator.Proofs.Trees.Moving

namespace Calculator

-- What a run of a program ends with.
abbrev Run := EStateM.Result EvaluationError (Environment Float) Float

namespace Program

-- The program that ends with a result at once.
def ofResult : Except EvaluationError Float → Program
  | .ok value => fun environment => .ok value environment
  | .error error => fun environment => .error error environment

-- The program that binds a name to a value and ends with it.
def binding (name : String) (value : Float) : Program := fun environment =>
  .ok value (environment.define name value)

-- Goes on with what the value of the first program calls for.
def andThen (first : Program) (next : Float → Program) : Program := fun environment =>
  match first environment with
  | .ok value after => next value after
  | .error error after => .error error after

theorem branch_eq_andThen (condition body otherwise : Program) :
    branch condition body otherwise =
      condition.andThen fun value => if value == Decimal.zero then otherwise else body := by
  funext environment
  unfold branch andThen
  cases condition environment with
  | ok value after =>
    dsimp only
    split <;> rfl
  | error error after => rfl

theorem bindName_eq_andThen (name : String) (body : Program) :
    bindName name body = body.andThen (binding name) := rfl

end Program

theorem Chain.step_eq_andThen (chain : Chain)
    (operation : Float → Float → Except EvaluationError Float) (right : Program) :
    (chain.step operation right).program =
      chain.program.andThen fun x => right.andThen fun y => .ofResult (operation x y) := by
  funext environment
  rw [program_step]
  unfold Program.andThen
  cases chain.program environment with
  | error error middle => rfl
  | ok x middle =>
    cases hy : right middle with
    | error error after => simp only [hy]
    | ok y after =>
      simp only [hy]
      cases operation x y <;> rfl

-- The error of an expression of which the tokens were changed.
def CompileError.mapTokens (change : Token → Token) : CompileError → CompileError
  | unknownOperator operator => unknownOperator (change operator)
  | error => error

theorem CompileError.mapTokens_id (error : CompileError) : error.mapTokens id = error := by
  cases error <;> rfl

-- A relation between the programs of one expression under two settings, of which the tokens were
-- changed for the second program.
structure Congruence (related : Program → Program → Prop) (settings settings' : Settings)
    (change : Token → Token) : Prop where
  kind : ∀ token, (change token).kind = token.kind
  text : ∀ token, (change token).text = token.text
  falseValue : settings.falseValue = settings'.falseValue
  constant : ∀ value, related (.constant value) (.constant value)
  reference : ∀ name token,
    related (.reference name token.span) (.reference name (change token).span)
  binding : ∀ name value, related (.binding name value) (.binding name value)
  operation : ∀ (operator : Operator) (token : Token) x y,
    related (.ofResult (operator.apply settings.divisionByZero token.span x y))
      (.ofResult (operator.apply settings'.divisionByZero (change token).span x y))
  andThen : ∀ {first first' next next'}, related first first' →
    (∀ value, related (next value) (next' value)) →
      related (first.andThen next) (first'.andThen next')

namespace Congruence

variable {related : Program → Program → Prop} {settings settings' : Settings}
  {change : Token → Token} (h : Congruence related settings settings' change)

include h

theorem branch {condition condition' body body' otherwise otherwise' : Program}
    (hcondition : related condition condition') (hbody : related body body')
    (hotherwise : related otherwise otherwise') :
    related (.branch condition body otherwise) (.branch condition' body' otherwise') := by
  rw [Program.branch_eq_andThen, Program.branch_eq_andThen]
  refine h.andThen hcondition fun value => ?_
  split
  · exact hotherwise
  · exact hbody

theorem bindName (name : String) {body body' : Program} (hbody : related body body') :
    related (.bindName name body) (.bindName name body') := by
  rw [Program.bindName_eq_andThen, Program.bindName_eq_andThen]
  exact h.andThen hbody (h.binding name)

theorem step {chain chain' : Chain} {right right' : Program} (operator : Operator)
    (token : Token) (hleft : related chain.program chain'.program)
    (hright : related right right') :
    related
      (chain.step (fun x y => operator.apply settings.divisionByZero token.span x y) right).program
      (chain'.step (fun x y => operator.apply settings'.divisionByZero (change token).span x y)
        right').program := by
  rw [Chain.step_eq_andThen, Chain.step_eq_andThen]
  exact h.andThen hleft fun x => h.andThen hright fun y => h.operation operator token x y

end Congruence

namespace Compiler

-- How making two chains ends: both are refused for one reason, or both are made.
inductive Agree (related : Program → Program → Prop) (change : Token → Token) :
    Except CompileError Chain → Except CompileError Chain → Prop where
  | refused (error : CompileError) :
      Agree related change (.error error) (.error (error.mapTokens change))
  | made {first second : Chain} (h : related first.program second.program) :
      Agree related change (.ok first) (.ok second)

namespace Agree

variable {related : Program → Program → Prop} {change : Token → Token}

theorem single {first second : Program} (h : related first second) :
    Agree related change (.ok { first }) (.ok { first := second }) := by
  refine .made ?_
  rwa [Chain.program_first, Chain.program_first]

theorem bind {made made' : Except CompileError Chain}
    {next next' : Chain → Except CompileError Chain} (h : Agree related change made made')
    (hnext : ∀ {first second : Chain}, related first.program second.program →
      Agree related change (next first) (next' second)) :
    Agree related change (made >>= next) (made' >>= next') := by
  cases h with
  | refused error => exact .refused error
  | made hmade => exact hnext hmade

end Agree

variable {related : Program → Program → Prop} {settings settings' : Settings}
  {change : Token → Token}

-- Which expressions are refused depends neither on the policy nor on the places of tokens.
theorem chain_agrees (h : Congruence related settings settings' change)
    (expression : Expression) :
    Agree related change (chain settings expression)
      (chain settings' (expression.mapTokens change)) := by
  induction expression with
  | integer token value =>
    have hvalue : wholeValue (change token) = wholeValue token := by
      rw [wholeValue, wholeValue, h.text]
    rw [Expression.mapTokens, chain, chain, hvalue]
    unfold wholeValue
    dsimp only
    split
    · exact .single (h.constant _)
    · split
      · exact .single (h.constant _)
      · exact .refused _
  | real whole point fraction value => exact .single (h.constant value)
  | reference token name => exact .single (h.reference name token)
  | binary left operator right ihLeft ihRight =>
    rw [Expression.mapTokens, chain, chain, h.kind]
    refine ihLeft.bind fun hleft => ?_
    cases Operator.ofKind? operator.kind with
    | none => exact .refused (.unknownOperator operator)
    | some operation =>
      exact ihRight.bind fun hright => .made (h.step operation operator hleft hright)
  | ifThen ifToken condition thenToken body endToken elseToken ihCondition ihBody =>
    rw [Expression.mapTokens, chain, chain]
    refine ihCondition.bind fun hcondition => ihBody.bind fun hbody => ?_
    rw [otherwiseProgram, otherwiseProgram, ← h.falseValue]
    cases settings.falseValue.toFloat? with
    | some value => exact .single (h.branch hcondition hbody (h.constant value))
    | none => exact .refused .valueTooLarge
  | ifThenElse ifToken condition thenToken body elseToken otherwise endToken ihCondition ihBody
      ihOtherwise =>
    exact ihCondition.bind fun hcondition => ihBody.bind fun hbody =>
      ihOtherwise.bind fun hotherwise => .single (h.branch hcondition hbody hotherwise)
  | binding letToken nameToken name equals body ih =>
    exact ih.bind fun hbody => .single (h.bindName name hbody)
  | erroneous token message => exact .refused (.uncompilable _)
  | foreign sort => exact .refused (.uncompilable sort.name)

-- How making two programs ends.
theorem compile_agrees (h : Congruence related settings settings' change)
    (expression : Expression) :
    (∃ error, compile settings expression = .error error ∧
      compile settings' (expression.mapTokens change) = .error (error.mapTokens change)) ∨
    ∃ program program', compile settings expression = .ok program ∧
      compile settings' (expression.mapTokens change) = .ok program' ∧
        related program program' := by
  have hagree := chain_agrees h expression
  unfold compile
  generalize chain settings expression = made at hagree ⊢
  generalize chain settings' (expression.mapTokens change) = made' at hagree ⊢
  cases hagree with
  | refused error => exact .inl ⟨error, rfl, rfl⟩
  | made hrelated => exact .inr ⟨_, _, rfl, rfl, hrelated⟩

end Compiler

end Calculator
