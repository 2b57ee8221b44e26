import Calculator.Compiler
import Calculator.Proofs.Parsing.Places

namespace Calculator

open Grammar

namespace Expression

theorem operandHeight_le (expression : Expression) : expression.operandHeight ≤ expression.height :=
  Nat.le_add_right _ _

-- A chain of operands is at most one level higher than they are.
theorem height_foldl_le {bound : Nat} {first : Expression} {steps : List (Token × Expression)}
    (hfirst : first.height ≤ bound) (hsteps : ∀ step ∈ steps, step.2.height ≤ bound) :
    (steps.foldl (fun left step => Expression.binary left step.1 step.2) first).height ≤
      bound + 1 := by
  have hchain : ∀ left : Expression, left.operandHeight ≤ bound → left.chainLevel ≤ 1 →
      (steps.foldl (fun left step => Expression.binary left step.1 step.2) left).height ≤
        bound + 1 := by
    induction steps with
    | nil =>
      intro left hleft hlevel
      rw [List.foldl_nil, height]
      omega
    | cons step rest ih =>
      obtain ⟨hstep, hrest⟩ := List.forall_mem_cons.mp hsteps
      intro left hleft hlevel
      refine ih hrest _ ?_ (Nat.le_refl 1)
      exact Nat.max_le.mpr ⟨hleft, hstep⟩
  refine hchain first (Nat.le_trans first.operandHeight_le hfirst) ?_
  cases first <;> simp [chainLevel]

end Expression

-- How high what a symbol is read as may be, when expressions may nest so many levels.
def Grammar.ceiling (levels : Nat) : Nonterminal → Nat
  | .expression | .primary | .number => 3 * levels + 1
  | .chain .product => 3 * levels + 2
  | .chain .sum => 3 * levels + 3
  | .chain .comparison => 3 * levels + 4

def Grammar.Bounded (levels : Nat) : (symbol : Symbol) → Meaning symbol → Prop
  | .one nonterminal, expression => Expression.height expression ≤ ceiling levels nonterminal
  | .many level, steps => ∀ step ∈ steps, step.2.height ≤ ceiling levels level.operand

theorem Grammar.ceiling_chain (levels : Nat) (level : Level) :
    ceiling levels (.chain level) = ceiling levels level.operand + 1 := by
  cases level <;> rfl

namespace Parser

theorem Reads.bounded {levels : Nat} {symbol : Symbol} {state after : State}
    {meaning : Meaning symbol} (h : Reads levels symbol state meaning after) :
    Bounded levels symbol meaning := by
  induction h with
  | binding isLet hname hequals hbody ih =>
    simp only [Bounded, ceiling, Expression.height, Expression.operandHeight,
      Expression.chainLevel] at ih ⊢
    omega
  | ifThen isIf hcondition hthen hbody noElse hend ihCondition ihBody =>
    simp only [Bounded, ceiling, Expression.height, Expression.operandHeight,
      Expression.chainLevel] at ihCondition ihBody ⊢
    omega
  | ifThenElse isIf hcondition hthen hbody isElse hotherwise hend ihCondition ihBody ihOtherwise =>
    simp only [Bounded, ceiling, Expression.height, Expression.operandHeight,
      Expression.chainLevel] at ihCondition ihBody ihOtherwise ⊢
    omega
  | comparison noLet noIf hoperands ih => exact ih
  | chain hfirst hrest ihFirst ihRest =>
    simp only [Bounded, ceiling_chain]
    exact Expression.height_foldl_le ihFirst ihRest
  | nothing noOperator =>
    intro step hstep
    cases hstep
  | more isOperator hoperand hrest ihOperand ihRest =>
    exact List.forall_mem_cons.mpr ⟨ihOperand, ihRest⟩
  | literal hnumber ih => exact ih
  | group isLeft hinner hright ih => exact ih
  | _ => exact Nat.succ_le_succ (Nat.zero_le _)

end Parser

namespace Reading

variable (source : Source) (file : String)

theorem height_bounded : Expression.height (ofSource source file).expression ≤ 3 * 64 + 1 :=
  (reads source file).bounded

theorem height_le : (ofSource source file).expression.height ≤ maxHeight :=
  height_bounded source file

end Reading

end Calculator
