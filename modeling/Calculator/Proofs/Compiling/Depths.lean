import Mathlib.Data.List.MinMax
import Calculator.Proofs.Compiling.Failures

namespace Calculator

namespace Expression

-- The operands of a chain, the first one first. Any other node is an operand itself.
def operands : Expression → List Expression
  | binary left _ right => left.operands ++ [right]
  | operand => [operand]

-- What is compiled by itself for a node: all operands of a chain, or the parts of any other node.
def compiledParts : Expression → List Expression
  | binary left _ right => left.operands ++ [right]
  | ifThen _ condition _ body _ _ => [condition, body]
  | ifThenElse _ condition _ body _ otherwise _ => [condition, body, otherwise]
  | binding _ _ _ _ body => [body]
  | integer .. | real .. | reference .. | erroneous .. | foreign _ => []

def highest (expressions : List Expression) : Nat := (expressions.map height).foldr max 0

theorem highest_append (front back : List Expression) :
    highest (front ++ back) = max (highest front) (highest back) := by
  induction front with
  | nil => simp [highest]
  | cons first rest ih =>
    simp only [highest, List.cons_append, List.map_cons, List.foldr_cons] at ih ⊢
    rw [ih, Nat.max_assoc]

theorem le_highest {expression : Expression} {expressions : List Expression}
    (h : expression ∈ expressions) : expression.height ≤ highest expressions :=
  List.le_max_of_le (List.mem_map_of_mem h) (Nat.le_refl _)

theorem exists_mem_highest {expressions : List Expression} (h : expressions ≠ []) :
    ∃ expression ∈ expressions, expression.height = highest expressions := by
  induction expressions with
  | nil => exact absurd rfl h
  | cons first rest ih =>
    by_cases hrest : rest = []
    · exact ⟨first, List.mem_cons_self, by simp [highest, hrest]⟩
    · obtain ⟨other, hother, hheight⟩ := ih hrest
      have hhighest : highest (first :: rest) = max first.height (highest rest) := rfl
      rcases Nat.le_total first.height (highest rest) with hle | hle
      · exact ⟨other, List.mem_cons_of_mem _ hother, by
          rw [hhighest, Nat.max_eq_right hle, hheight]⟩
      · exact ⟨first, List.mem_cons_self, by rw [hhighest, Nat.max_eq_left hle]⟩

theorem highest_operands (expression : Expression) :
    highest expression.operands = expression.operandHeight := by
  induction expression with
  | binary left operator right ihLeft =>
    rw [operands, highest_append, ihLeft]
    simp [highest, operandHeight, height]
  | _ => simp [operands, highest, height, chainLevel]

-- A node is one level higher than the highest of what is compiled by itself for it.
theorem height_eq (expression : Expression) :
    expression.height = 1 + highest expression.compiledParts := by
  cases expression with
  | binary left operator right =>
    have hoperands := highest_operands (.binary left operator right)
    rw [operands] at hoperands
    rw [compiledParts, hoperands, height, chainLevel, Nat.add_comm]
  | ifThen | ifThenElse | binding =>
    simp [compiledParts, highest, height, operandHeight, chainLevel]
  | integer | real | reference | erroneous | foreign => rfl

theorem height_lt {outer inner : Expression} (h : inner ∈ outer.compiledParts) :
    inner.height < outer.height := by
  have hle := le_highest h
  rw [outer.height_eq]
  omega

-- Calls that are open at once, the outermost first.
def Nested (calls : List Expression) : Prop :=
  calls.IsChain fun outer inner => inner ∈ outer.compiledParts

theorem Nested.length_le {expression : Expression} {calls : List Expression}
    (h : Nested (expression :: calls)) : (expression :: calls).length ≤ expression.height := by
  induction calls generalizing expression with
  | nil =>
    rw [expression.height_eq]
    simp
  | cons inner rest ih =>
    obtain ⟨hinner, hrest⟩ := List.isChain_cons_cons.mp h
    have hlength := ih hrest
    have hheight := height_lt hinner
    simp only [List.length_cons] at hlength ⊢
    omega

theorem exists_nested (expression : Expression) :
    ∃ calls, Nested (expression :: calls) ∧ (expression :: calls).length = expression.height := by
  by_cases hparts : expression.compiledParts = []
  · refine ⟨[], List.isChain_singleton _, ?_⟩
    rw [expression.height_eq, hparts]
    rfl
  · obtain ⟨inner, hinner, hhighest⟩ := exists_mem_highest hparts
    obtain ⟨calls, hcalls, hlength⟩ := inner.exists_nested
    refine ⟨inner :: calls, List.isChain_cons_cons.mpr ⟨hinner, hcalls⟩, ?_⟩
    rw [List.length_cons, hlength, hhighest, expression.height_eq, Nat.add_comm]
termination_by expression.height
decreasing_by exact height_lt hinner

theorem fault?_ne_tooDeep {node : Expression} {error : CompileError}
    (h : node.fault? = some error) (span : Span) : error ≠ .tooDeep span := by
  rintro rfl
  cases node with
  | binary left operator right =>
    simp only [fault?] at h
    split at h <;> cases h
  | _ => cases h

theorem checkComplete_ne_tooDeep (expression : Expression) (span : Span) :
    expression.checkComplete ≠ .error (.tooDeep span) := by
  intro h
  unfold checkComplete at h
  dsimp only at h
  split at h
  · rename_i error herror
    obtain ⟨node, _, hfault⟩ := List.exists_of_findSome?_eq_some herror
    exact fault?_ne_tooDeep hfault span (Except.error.inj h)
  · split at h
    · cases h
    · split at h <;> cases h

end Expression

namespace Compiler

-- An expression of limited height is never refused for it, whatever else is wrong with it.
theorem generate_ne_tooDeep {limit : Nat} {expression : Expression}
    (hheight : expression.height ≤ limit) (settings : Settings) (span : Span) :
    generate limit settings expression ≠ .error (.tooDeep span) := by
  intro h
  cases hcheck : expression.checkComplete with
  | error error =>
    rw [generate_of_check_error hcheck] at h
    obtain rfl := Except.error.inj h
    exact expression.checkComplete_ne_tooDeep span hcheck
  | ok =>
    have hcompile : compile settings expression = .error (.tooDeep span) := by
      rw [← h, generate, hcheck]
      simp [Nat.not_lt.mpr hheight, bind, Except.bind]
    rcases compile_error_of_checkComplete hcheck hcompile with hvalue | ⟨text, htext⟩
    · cases hvalue
    · cases htext

end Compiler

-- However long a text is and whatever is wrong with it, the compiler never has more than 193 calls
-- open at once for what is read from it, as many as the expression is high, and does not refuse it
-- for its depth.
theorem compiling_stays_shallow (source : Source) (file : String) :
    let expression := (Reading.ofSource source file).expression
    (∀ node : Expression, node.height = 1 + Expression.highest node.compiledParts) ∧
    expression.height ≤ 3 * 64 + 1 ∧
    (∃ calls, Expression.Nested (expression :: calls) ∧
      (expression :: calls).length = expression.height) ∧
    (∀ calls, Expression.Nested (expression :: calls) → (expression :: calls).length ≤ 193) ∧
    ∀ limit settings span, 3 * 64 + 1 ≤ limit →
      Compiler.generate limit settings expression ≠ .error (.tooDeep span) := by
  intro expression
  have hheight : expression.height ≤ 3 * 64 + 1 := Reading.height_bounded source file
  refine ⟨Expression.height_eq, hheight, expression.exists_nested, fun calls hcalls => ?_,
    fun limit settings span hlimit => ?_⟩
  · exact Nat.le_trans hcalls.length_le hheight
  · exact Compiler.generate_ne_tooDeep (Nat.le_trans hheight hlimit) settings span

-- The name in `1+x` is compiled inside of the sum.
theorem name_compiled_in_sum :
    let expression := (Reading.ofString "1+x").expression
    ∃ operand, operand.nodeName = "VariableExpression" ∧
      Expression.Nested [expression, operand] ∧ [expression, operand].length ≤ 193 := by
  have hnames : (Reading.ofString "1+x").expression.compiledParts.map Expression.nodeName =
      ["IntegerNumberExpression", "VariableExpression"] := by cbv
  intro expression
  obtain ⟨operand, hoperand, hname⟩ : ∃ operand ∈ expression.compiledParts,
      operand.nodeName = "VariableExpression" :=
    List.mem_map.mp (hnames ▸ List.mem_cons_of_mem _ List.mem_cons_self)
  have hnested : Expression.Nested [expression, operand] :=
    List.isChain_cons_cons.mpr ⟨hoperand, List.isChain_singleton _⟩
  exact ⟨operand, hname, hnested,
    (compiling_stays_shallow (.ofString "1+x") unnamedInput).2.2.2.1 [operand] hnested⟩

end Calculator
