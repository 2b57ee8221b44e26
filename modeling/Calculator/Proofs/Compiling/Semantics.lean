import Calculator.Compiler

namespace Calculator

-- The value of every bound name.
abbrev Store := String → Option Float

def Store.bind (store : Store) (name : String) (value : Float) : Store := fun other =>
  if other = name then some value else store other

-- A value with the bindings after it, or an error.
abbrev Answer := Except EvaluationError (Float × Store)

-- The double nearest to the number that the digits of a token write, which may be of any script.
-- Without digits it is zero.
def Token.whole (token : Token) : Float :=
  Decimal.ofDigits ((token.text.getD "").toList.map Text.plainDigit)

-- What an operator makes of its operands.
inductive Operates (policy : DivisionPolicy) (operator : Token) (x y : Float) :
    Except EvaluationError Float → Prop where
  | sum (h : operator.kind = .plus) : Operates policy operator x y (.ok (x + y))
  | difference (h : operator.kind = .minus) : Operates policy operator x y (.ok (x - y))
  | product (h : operator.kind = .star) : Operates policy operator x y (.ok (x * y))
  | quotient (h : operator.kind = .slash) (hnonzero : (y == Decimal.zero) = false) :
      Operates policy operator x y (.ok (x / y))
  | refused (h : operator.kind = .slash) (hzero : (y == Decimal.zero) = true)
      (hpolicy : policy = .error) :
      Operates policy operator x y (.error (.divisionByZero operator.span))
  | undefined (h : operator.kind = .slash) (hzero : (y == Decimal.zero) = true)
      (hpolicy : policy = .ieee) (hx : (x == Decimal.zero || x.isNaN) = true) :
      Operates policy operator x y (.ok Decimal.nan)
  | infinite (h : operator.kind = .slash) (hzero : (y == Decimal.zero) = true)
      (hpolicy : policy = .ieee) (hx : (x == Decimal.zero || x.isNaN) = false) :
      Operates policy operator x y
        (.ok (Decimal.withSign (Decimal.isNegative x != Decimal.isNegative y) Decimal.infinity))
  | less (h : operator.kind = .less) : Operates policy operator x y (.ok (truth (x < y)))
  | lessEqual (h : operator.kind = .lessEqual) : Operates policy operator x y (.ok (truth (x ≤ y)))
  | greater (h : operator.kind = .greater) : Operates policy operator x y (.ok (truth (x > y)))
  | greaterEqual (h : operator.kind = .greaterEqual) :
      Operates policy operator x y (.ok (truth (x ≥ y)))
  | equal (h : operator.kind = .equalEqual) : Operates policy operator x y (.ok (truth (x == y)))

-- Operands are computed before operators, the left one first. Only one branch is computed.
-- `otherwise` is the value of a false condition without a branch of its own.
inductive Evaluates (policy : DivisionPolicy) (otherwise : Float) :
    Expression → Store → Answer → Prop where
  | integer {token : Token} {value : Int} {store : Store} :
      Evaluates policy otherwise (.integer token value) store (.ok (token.whole, store))
  | real {whole point fraction : Token} {value : Float} {store : Store} :
      Evaluates policy otherwise (.real whole point fraction value) store (.ok (value, store))
  | reference {token : Token} {name : String} {value : Float} {store : Store}
      (hbound : store name = some value) :
      Evaluates policy otherwise (.reference token name) store (.ok (value, store))
  | unbound {token : Token} {name : String} {store : Store} (hunbound : store name = none) :
      Evaluates policy otherwise (.reference token name) store
        (.error (.undefined name (some token.span)))
  | binary {left right : Expression} {operator : Token} {store middle after : Store}
      {x y z : Float} (hleft : Evaluates policy otherwise left store (.ok (x, middle)))
      (hright : Evaluates policy otherwise right middle (.ok (y, after)))
      (hoperator : Operates policy operator x y (.ok z)) :
      Evaluates policy otherwise (.binary left operator right) store (.ok (z, after))
  | leftFails {left right : Expression} {operator : Token} {store : Store}
      {error : EvaluationError} (hleft : Evaluates policy otherwise left store (.error error)) :
      Evaluates policy otherwise (.binary left operator right) store (.error error)
  | rightFails {left right : Expression} {operator : Token} {store middle : Store} {x : Float}
      {error : EvaluationError} (hleft : Evaluates policy otherwise left store (.ok (x, middle)))
      (hright : Evaluates policy otherwise right middle (.error error)) :
      Evaluates policy otherwise (.binary left operator right) store (.error error)
  | operatorFails {left right : Expression} {operator : Token} {store middle after : Store}
      {x y : Float} {error : EvaluationError}
      (hleft : Evaluates policy otherwise left store (.ok (x, middle)))
      (hright : Evaluates policy otherwise right middle (.ok (y, after)))
      (hoperator : Operates policy operator x y (.error error)) :
      Evaluates policy otherwise (.binary left operator right) store (.error error)
  | ifTrue {ifToken thenToken endToken elseToken : Token} {condition body : Expression}
      {store middle : Store} {x : Float} {answer : Answer}
      (hcondition : Evaluates policy otherwise condition store (.ok (x, middle)))
      (hnonzero : (x == Decimal.zero) = false)
      (hbody : Evaluates policy otherwise body middle answer) :
      Evaluates policy otherwise
        (.ifThen ifToken condition thenToken body endToken elseToken) store answer
  | ifFalse {ifToken thenToken endToken elseToken : Token} {condition body : Expression}
      {store middle : Store} {x : Float}
      (hcondition : Evaluates policy otherwise condition store (.ok (x, middle)))
      (hzero : (x == Decimal.zero) = true) :
      Evaluates policy otherwise
        (.ifThen ifToken condition thenToken body endToken elseToken) store
        (.ok (otherwise, middle))
  | ifFails {ifToken thenToken endToken elseToken : Token} {condition body : Expression}
      {store : Store} {error : EvaluationError}
      (hcondition : Evaluates policy otherwise condition store (.error error)) :
      Evaluates policy otherwise
        (.ifThen ifToken condition thenToken body endToken elseToken) store (.error error)
  | thenTrue {ifToken thenToken elseToken endToken : Token} {condition body other : Expression}
      {store middle : Store} {x : Float} {answer : Answer}
      (hcondition : Evaluates policy otherwise condition store (.ok (x, middle)))
      (hnonzero : (x == Decimal.zero) = false)
      (hbody : Evaluates policy otherwise body middle answer) :
      Evaluates policy otherwise
        (.ifThenElse ifToken condition thenToken body elseToken other endToken) store answer
  | elseFalse {ifToken thenToken elseToken endToken : Token} {condition body other : Expression}
      {store middle : Store} {x : Float} {answer : Answer}
      (hcondition : Evaluates policy otherwise condition store (.ok (x, middle)))
      (hzero : (x == Decimal.zero) = true)
      (hother : Evaluates policy otherwise other middle answer) :
      Evaluates policy otherwise
        (.ifThenElse ifToken condition thenToken body elseToken other endToken) store answer
  | elseFails {ifToken thenToken elseToken endToken : Token} {condition body other : Expression}
      {store : Store} {error : EvaluationError}
      (hcondition : Evaluates policy otherwise condition store (.error error)) :
      Evaluates policy otherwise
        (.ifThenElse ifToken condition thenToken body elseToken other endToken) store
        (.error error)
  | binding {letToken nameToken equals : Token} {name : String} {body : Expression}
      {store after : Store} {value : Float}
      (hbody : Evaluates policy otherwise body store (.ok (value, after))) :
      Evaluates policy otherwise (.binding letToken nameToken name equals body) store
        (.ok (value, after.bind name value))
  | bindingFails {letToken nameToken equals : Token} {name : String} {body : Expression}
      {store : Store} {error : EvaluationError}
      (hbody : Evaluates policy otherwise body store (.error error)) :
      Evaluates policy otherwise (.binding letToken nameToken name equals body) store
        (.error error)

theorem Operates.functional {policy : DivisionPolicy} {operator : Token} {x y : Float}
    {result result' : Except EvaluationError Float} (h : Operates policy operator x y result)
    (h' : Operates policy operator x y result') : result = result' := by
  cases h <;> cases h' <;> simp_all

namespace Evaluates

variable {policy : DivisionPolicy} {otherwise : Float}

theorem functional {expression : Expression} {store : Store} {answer answer' : Answer}
    (h : Evaluates policy otherwise expression store answer)
    (h' : Evaluates policy otherwise expression store answer') : answer = answer' := by
  induction h generalizing answer' with
  | integer | real => cases h'; rfl
  | reference hbound | unbound hunbound => cases h' <;> simp_all
  | binary hleft hright hoperator ihLeft ihRight =>
    cases h' with
    | binary hleft' hright' hoperator' =>
      cases ihLeft hleft'
      cases ihRight hright'
      cases hoperator.functional hoperator'
      rfl
    | leftFails hleft' => cases ihLeft hleft'
    | rightFails hleft' hright' =>
      cases ihLeft hleft'
      cases ihRight hright'
    | operatorFails hleft' hright' hoperator' =>
      cases ihLeft hleft'
      cases ihRight hright'
      cases hoperator.functional hoperator'
  | leftFails hleft ihLeft =>
    cases h' with
    | leftFails hleft' => exact ihLeft hleft'
    | binary hleft' | rightFails hleft' | operatorFails hleft' => cases ihLeft hleft'
  | rightFails hleft hright ihLeft ihRight =>
    cases h' with
    | rightFails hleft' hright' =>
      cases ihLeft hleft'
      exact ihRight hright'
    | leftFails hleft' => cases ihLeft hleft'
    | binary hleft' hright' | operatorFails hleft' hright' =>
      cases ihLeft hleft'
      cases ihRight hright'
  | operatorFails hleft hright hoperator ihLeft ihRight =>
    cases h' with
    | operatorFails hleft' hright' hoperator' =>
      cases ihLeft hleft'
      cases ihRight hright'
      cases hoperator.functional hoperator'
      rfl
    | leftFails hleft' => cases ihLeft hleft'
    | rightFails hleft' hright' =>
      cases ihLeft hleft'
      cases ihRight hright'
    | binary hleft' hright' hoperator' =>
      cases ihLeft hleft'
      cases ihRight hright'
      cases hoperator.functional hoperator'
  | ifTrue hcondition hnonzero hbody ihCondition ihBody =>
    cases h' with
    | ifTrue hcondition' hnonzero' hbody' =>
      cases ihCondition hcondition'
      exact ihBody hbody'
    | ifFalse hcondition' hzero' =>
      cases ihCondition hcondition'
      rw [hnonzero] at hzero'
      cases hzero'
    | ifFails hcondition' => cases ihCondition hcondition'
  | ifFalse hcondition hzero ihCondition =>
    cases h' with
    | ifFalse hcondition' hzero' =>
      cases ihCondition hcondition'
      rfl
    | ifTrue hcondition' hnonzero' hbody' =>
      cases ihCondition hcondition'
      rw [hzero] at hnonzero'
      cases hnonzero'
    | ifFails hcondition' => cases ihCondition hcondition'
  | ifFails hcondition ihCondition =>
    cases h' with
    | ifFails hcondition' => exact ihCondition hcondition'
    | ifTrue hcondition' | ifFalse hcondition' => cases ihCondition hcondition'
  | thenTrue hcondition hnonzero hbody ihCondition ihBody =>
    cases h' with
    | thenTrue hcondition' hnonzero' hbody' =>
      cases ihCondition hcondition'
      exact ihBody hbody'
    | elseFalse hcondition' hzero' hother' =>
      cases ihCondition hcondition'
      rw [hnonzero] at hzero'
      cases hzero'
    | elseFails hcondition' => cases ihCondition hcondition'
  | elseFalse hcondition hzero hother ihCondition ihOther =>
    cases h' with
    | elseFalse hcondition' hzero' hother' =>
      cases ihCondition hcondition'
      exact ihOther hother'
    | thenTrue hcondition' hnonzero' hbody' =>
      cases ihCondition hcondition'
      rw [hzero] at hnonzero'
      cases hnonzero'
    | elseFails hcondition' => cases ihCondition hcondition'
  | elseFails hcondition ihCondition =>
    cases h' with
    | elseFails hcondition' => exact ihCondition hcondition'
    | thenTrue hcondition' | elseFalse hcondition' => cases ihCondition hcondition'
  | binding hbody ih =>
    cases h' with
    | binding hbody' =>
      cases ih hbody'
      rfl
    | bindingFails hbody' => cases ih hbody'
  | bindingFails hbody ih =>
    cases h' with
    | bindingFails hbody' => exact ih hbody'
    | binding hbody' => cases ih hbody'

end Evaluates

end Calculator
