import Calculator.Proofs.Compiling.Congruence

namespace Calculator

-- Which program an expression has, by the programs of its parts.
inductive Compiles (settings : Settings) : Expression → Program → Prop where
  | integer {token : Token} {number : Float} (hnumber : Compiler.wholeValue token = .ok number)
      (value : Int) : Compiles settings (.integer token value) (.constant number)
  | real (whole point fraction : Token) (value : Float) :
      Compiles settings (.real whole point fraction value) (.constant value)
  | reference (token : Token) (name : String) :
      Compiles settings (.reference token name) (.reference name token.span)
  | binary {left right : Expression} {operator : Token} {operation : Operator}
      {first second : Program} (hoperation : Operator.ofKind? operator.kind = some operation)
      (hleft : Compiles settings left first) (hright : Compiles settings right second) :
      Compiles settings (.binary left operator right)
        (first.andThen fun x => second.andThen fun y =>
          .ofResult (operation.apply settings.divisionByZero operator.span x y))
  | ifThen {ifToken thenToken endToken elseToken : Token} {condition body : Expression}
      {test inner : Program} {otherwise : Float}
      (hotherwise : settings.falseValue.toFloat? = some otherwise)
      (hcondition : Compiles settings condition test) (hbody : Compiles settings body inner) :
      Compiles settings (.ifThen ifToken condition thenToken body endToken elseToken)
        (.branch test inner (.constant otherwise))
  | ifThenElse {ifToken thenToken elseToken endToken : Token} {condition body other : Expression}
      {test inner outer : Program} (hcondition : Compiles settings condition test)
      (hbody : Compiles settings body inner) (hother : Compiles settings other outer) :
      Compiles settings (.ifThenElse ifToken condition thenToken body elseToken other endToken)
        (.branch test inner outer)
  | binding {letToken nameToken equals : Token} {name : String} {body : Expression}
      {inner : Program} (hbody : Compiles settings body inner) :
      Compiles settings (.binding letToken nameToken name equals body) (.bindName name inner)

namespace Compiler

variable {settings : Settings}

theorem made_of_bind {made : Except CompileError Chain}
    {next : Chain → Except CompileError Chain} {last : Chain} (h : made >>= next = .ok last) :
    ∃ first, made = .ok first ∧ next first = .ok last := by
  cases made with
  | error error => cases h
  | ok first => exact ⟨first, rfl, h⟩

theorem compiles_of_chain {expression : Expression} {made : Chain}
    (h : chain settings expression = .ok made) : Compiles settings expression made.program := by
  induction expression generalizing made with
  | integer token value =>
    rw [chain] at h
    cases hnumber : wholeValue token with
    | error error =>
      rw [hnumber] at h
      cases h
    | ok number =>
      rw [hnumber] at h
      cases h
      exact .integer hnumber value
  | real whole point fraction value =>
    cases h
    exact .real whole point fraction value
  | reference token name =>
    cases h
    rw [Chain.program_first]
    exact .reference token name
  | binary left operator right ihLeft ihRight =>
    obtain ⟨leftMade, hleft, h⟩ := made_of_bind h
    cases hoperation : Operator.ofKind? operator.kind with
    | none =>
      rw [hoperation] at h
      cases h
    | some operation =>
      rw [hoperation] at h
      obtain ⟨rightMade, hright, h⟩ := made_of_bind h
      cases h
      rw [Chain.step_eq_andThen]
      exact .binary hoperation (ihLeft hleft) (ihRight hright)
  | ifThen ifToken condition thenToken body endToken elseToken ihCondition ihBody =>
    obtain ⟨conditionMade, hcondition, h⟩ := made_of_bind h
    obtain ⟨bodyMade, hbody, h⟩ := made_of_bind h
    rw [otherwiseProgram] at h
    cases hotherwise : settings.falseValue.toFloat? with
    | none =>
      rw [hotherwise] at h
      cases h
    | some otherwise =>
      rw [hotherwise] at h
      cases h
      rw [Chain.program_first]
      exact .ifThen hotherwise (ihCondition hcondition) (ihBody hbody)
  | ifThenElse ifToken condition thenToken body elseToken other endToken ihCondition ihBody
      ihOther =>
    obtain ⟨conditionMade, hcondition, h⟩ := made_of_bind h
    obtain ⟨bodyMade, hbody, h⟩ := made_of_bind h
    obtain ⟨otherMade, hother, h⟩ := made_of_bind h
    cases h
    rw [Chain.program_first]
    exact .ifThenElse (ihCondition hcondition) (ihBody hbody) (ihOther hother)
  | binding letToken nameToken name equals body ih =>
    obtain ⟨bodyMade, hbody, h⟩ := made_of_bind h
    cases h
    rw [Chain.program_first]
    exact .binding (ih hbody)
  | erroneous token message => cases h
  | foreign sort => cases h

theorem compiles_of_compile {expression : Expression} {program : Program}
    (h : compile settings expression = .ok program) : Compiles settings expression program := by
  unfold compile at h
  cases hmade : chain settings expression with
  | error error =>
    rw [hmade] at h
    cases h
  | ok made =>
    rw [hmade] at h
    cases h
    exact compiles_of_chain hmade

end Compiler

-- How a run may end: with a value and bindings of which `after` holds, or with an error of which
-- `fails` holds, told with the bindings made before it.
def Run.Within (after : Environment Float → Prop)
    (fails : EvaluationError → Environment Float → Prop) : Run → Prop
  | .ok _ environment => after environment
  | .error error environment => fails error environment

-- How a program may end if `before` holds of the bindings it starts from.
def Program.Meets (before after : Environment Float → Prop)
    (fails : EvaluationError → Environment Float → Prop) (program : Program) : Prop :=
  ∀ environment, before environment → Run.Within after fails (program environment)

namespace Program.Meets

variable {before middle after after' : Environment Float → Prop}
  {fails fails' : EvaluationError → Environment Float → Prop}

theorem mono {program : Program} (h : program.Meets before after fails)
    (hafter : ∀ environment, after environment → after' environment)
    (hfails : ∀ error environment, fails error environment → fails' error environment) :
    program.Meets before after' fails' := by
  intro environment hbefore
  have hrun := h environment hbefore
  generalize program environment = run at hrun ⊢
  cases run with
  | ok value environment => exact hafter _ hrun
  | error error environment => exact hfails _ _ hrun

theorem constant (value : Float) : (Program.constant value).Meets before before fails :=
  fun _ hbefore => hbefore

theorem reference {name : String} {span : Span}
    (hunbound : ∀ environment, before environment → environment.find? name = none →
      fails (.undefined name (some span)) environment) :
    (Program.reference name span).Meets before before fails := by
  intro environment hbefore
  unfold Program.reference Environment.get
  cases hname : environment.find? name with
  | none => exact hunbound environment hbefore hname
  | some value => exact hbefore

theorem andThen {first : Program} {next : Float → Program}
    (hfirst : first.Meets before middle fails)
    (hnext : ∀ value, (next value).Meets middle after fails) :
    (first.andThen next).Meets before after fails := by
  intro environment hbefore
  have hrun := hfirst environment hbefore
  unfold Program.andThen
  generalize first environment = run at hrun ⊢
  cases run with
  | ok value environment => exact hnext value environment hrun
  | error error environment => exact hrun

theorem branch {condition body otherwise : Program}
    (hcondition : condition.Meets before middle fails) (hbody : body.Meets middle after fails)
    (hotherwise : otherwise.Meets middle after fails) :
    (Program.branch condition body otherwise).Meets before after fails := by
  rw [branch_eq_andThen]
  refine hcondition.andThen fun value => ?_
  split
  · exact hotherwise
  · exact hbody

theorem bindName {name : String} {body : Program} (hbody : body.Meets before middle fails)
    (hdefine : ∀ environment value, middle environment → after (environment.define name value)) :
    (Program.bindName name body).Meets before after fails := by
  rw [bindName_eq_andThen]
  exact hbody.andThen fun value environment hmiddle => hdefine environment value hmiddle

-- Only a quotient can fail, and only by a zero under the strict policy.
theorem operation {operation : Operator} {token : Token} {policy : DivisionPolicy}
    (hoperation : Operator.ofKind? token.kind = some operation)
    (hdivides : token.kind = .slash → policy = .error → ∀ environment, before environment →
      fails (.divisionByZero token.span) environment) (x y : Float) :
    (Program.ofResult (operation.apply policy token.span x y)).Meets before before fails := by
  intro environment hbefore
  have hoperates : Operates policy token x y _ := Operator.operates hoperation x y
  generalize operation.apply policy token.span x y = result at hoperates ⊢
  cases hoperates with
  | refused hslash hzero hpolicy => exact hdivides hslash hpolicy environment hbefore
  | _ => exact hbefore

end Program.Meets

end Calculator
