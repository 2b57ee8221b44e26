import Calculator.Proofs.Compiling.Endings
import Calculator.Proofs.Compiling.Layout
import Calculator.Proofs.Trees.Nodes

namespace Calculator

namespace Expression

-- A node that no program can be made of.
def Offends : Expression → Prop
  | erroneous .. | foreign _ => True
  | binary _ operator _ => operator.kind.isBinary = false
  | integer .. | real .. | reference .. | ifThen .. | ifThenElse .. | binding .. => False

instance decidableOffends : (node : Expression) → Decidable node.Offends
  | erroneous .. | foreign _ => .isTrue trivial
  | binary _ operator _ => inferInstanceAs (Decidable (operator.kind.isBinary = false))
  | integer .. | real .. | reference .. | ifThen .. | ifThenElse .. | binding .. => .isFalse id

theorem fault?_of_not_offends {node : Expression} (h : ¬node.Offends) : node.fault? = none := by
  cases node with
  | binary left operator right => simpa [Offends, fault?] using h
  | erroneous token message => exact absurd trivial h
  | _ => rfl

theorem foreign_notMem {nodes : List Expression} (h : ∀ node ∈ nodes, ¬node.Offends)
    (sort : DataSort) : .foreign sort ∉ nodes := fun hnode => h _ hnode trivial

end Expression

-- That an expression is refused for one of its nodes. Of a foreign value there is no place to tell.
structure CompileError.Blames (error : CompileError) (node : Expression) : Prop where
  foreign : ∀ sort, node = .foreign sort →
    Failure.errorClass (.compile error) = .wrongType ∧
      error.message = "Not an expression node: " ++ sort.name
  placed : (∀ sort, node ≠ .foreign sort) →
    Failure.errorClass (.compile error) = .codeGeneration ∧
      ∃ front back, error.message = front ++ node.span.place ++ back

namespace CompileError.Blames

theorem erroneous (token : Token) (message : String) :
    Blames (.erroneous token.span message) (.erroneous token message) :=
  ⟨nofun, fun _ => ⟨rfl, _, ": " ++ message, String.append_assoc⟩⟩

theorem unknownOperator (left : Expression) (operator : Token) (right : Expression) :
    Blames (.unknownOperator operator) (.binary left operator right) :=
  ⟨nofun, fun _ => ⟨rfl, _, "", String.append_empty.symm⟩⟩

theorem foreignValue (sort : DataSort) : Blames (.foreign sort) (.foreign sort) :=
  ⟨by rintro _ ⟨⟩; exact ⟨rfl, rfl⟩, fun h => absurd rfl (h sort)⟩

end CompileError.Blames

namespace Expression

variable {expression : Expression}

-- The walk up to the first node that offends meets all nodes before it.
theorem nodeWalk_of_first {front back : List Expression} {node : Expression}
    (hnodes : expression.nodes = front ++ node :: back)
    (hfront : ∀ other ∈ front, ¬other.Offends) :
    expression.nodeWalk = Walk.before ⟨front, none⟩ (Walk.through (node :: back)) := by
  rw [nodeWalk_eq_through, hnodes, Walk.through_append,
    Walk.through_of_genuine (foreign_notMem hfront)]

theorem checkComplete_of_fault {front rest : List Expression} {node : Expression}
    {foreign : Option DataSort} {error : CompileError}
    (hwalk : expression.nodeWalk = ⟨front ++ node :: rest, foreign⟩)
    (hfront : ∀ other ∈ front, ¬other.Offends) (hfault : node.fault? = some error) :
    expression.checkComplete = .error error := by
  have hnone : front.findSome? fault? = none :=
    List.findSome?_eq_none_iff.mpr fun other hother => fault?_of_not_offends (hfront other hother)
  simp [checkComplete, hwalk, List.findSome?_append, hnone, hfault]

theorem checkComplete_of_offends {front back : List Expression} {node : Expression}
    (hnodes : expression.nodes = front ++ node :: back)
    (hfront : ∀ other ∈ front, ¬other.Offends) (hnode : node.Offends) :
    ∃ error, expression.checkComplete = .error error ∧ error.Blames node := by
  have hwalk := nodeWalk_of_first hnodes hfront
  cases node with
  | erroneous token message =>
    exact ⟨_, checkComplete_of_fault hwalk hfront rfl, .erroneous token message⟩
  | binary left operator right =>
    have hbinary : operator.kind.isBinary = false := hnode
    exact ⟨_, checkComplete_of_fault hwalk hfront (by simp [fault?, hbinary]),
      .unknownOperator left operator right⟩
  | foreign sort =>
    refine ⟨.foreign sort, ?_, .foreignValue sort⟩
    have hnone : (front ++ [Expression.foreign sort]).findSome? fault? = none := by
      rw [List.findSome?_append, List.findSome?_eq_none_iff.mpr fun other hother =>
        fault?_of_not_offends (hfront other hother)]
      rfl
    rw [Walk.through, Walk.before] at hwalk
    simp only [checkComplete, hwalk, hnone]
  | integer | real | reference | ifThen | ifThenElse | binding => cases hnode

theorem checkComplete_of_inoffensive (hnodes : ∀ node ∈ expression.nodes, ¬node.Offends) :
    expression.checkComplete =
      if expression.tokenWalk.visited.any Token.isEmpty then .error .missingToken else .ok () := by
  have hwalk : expression.nodeWalk = ⟨expression.nodes, none⟩ := by
    rw [nodeWalk_eq_through, Walk.through_of_genuine (foreign_notMem hnodes)]
  have hnone : expression.nodes.findSome? fault? = none :=
    List.findSome?_eq_none_iff.mpr fun node hnode => fault?_of_not_offends (hnodes node hnode)
  simp only [checkComplete, hwalk, hnone]

theorem clean_of_inoffensive (hnodes : ∀ node ∈ expression.nodes, ¬node.Offends)
    (hdigits : ∀ token value, integer token value ∈ expression.nodes →
      ∀ c ∈ (token.text.getD "").toList, Text.isDecimalDigit c = true) :
    expression.nodeWalk.Clean := by
  rw [nodeWalk_eq_through, Walk.through_of_genuine (foreign_notMem hnodes)]
  refine ⟨rfl, fun node hnode => ⟨fault?_of_not_offends (hnodes node hnode), ?_⟩⟩
  rintro token value rfl
  exact hdigits token value hnode

end Expression

-- What can be wrong with an expression of which the nodes were checked: the text of a whole number,
-- or the value of a false condition.
def CompileError.OfValue (error : CompileError) : Prop :=
  error = .valueTooLarge ∨ ∃ text, error = .unreadable text

namespace Compiler

variable {settings : Settings}

theorem error_of_bind {made : Except CompileError Chain}
    {next : Chain → Except CompileError Chain} {error : CompileError}
    (h : made >>= next = .error error) :
    made = .error error ∨ ∃ first, made = .ok first ∧ next first = .error error := by
  cases made with
  | error error => exact .inl h
  | ok first => exact .inr ⟨first, rfl, h⟩

theorem chain_error_of_inoffensive {expression : Expression} {error : CompileError}
    (hnodes : ∀ node ∈ expression.nodes, ¬node.Offends)
    (herror : chain settings expression = .error error) : error.OfValue := by
  induction expression with
  | integer token value =>
    rw [chain] at herror
    unfold wholeValue at herror
    dsimp only at herror
    split at herror
    · cases herror
    · split at herror
      · cases herror
      · cases herror
        exact .inr ⟨_, rfl⟩
  | real | reference => cases herror
  | binary left operator right ihLeft ihRight =>
    simp only [Expression.nodes, List.forall_mem_cons, List.forall_mem_append] at hnodes
    obtain ⟨hself, hleft, hright⟩ := hnodes
    rcases error_of_bind herror with herror | ⟨leftMade, _, herror⟩
    · exact ihLeft hleft herror
    · have hbinary : operator.kind.isBinary = true := by
        simpa [Expression.Offends] using hself
      rw [← Operator.isSome_ofKind?] at hbinary
      obtain ⟨operation, hoperation⟩ := Option.isSome_iff_exists.mp hbinary
      rw [hoperation] at herror
      rcases error_of_bind herror with herror | ⟨rightMade, _, herror⟩
      · exact ihRight hright herror
      · cases herror
  | ifThen ifToken condition thenToken body endToken elseToken ihCondition ihBody =>
    simp only [Expression.nodes, List.forall_mem_cons, List.forall_mem_append] at hnodes
    obtain ⟨_, hcondition, hbody⟩ := hnodes
    rcases error_of_bind herror with herror | ⟨conditionMade, _, herror⟩
    · exact ihCondition hcondition herror
    · rcases error_of_bind herror with herror | ⟨bodyMade, _, herror⟩
      · exact ihBody hbody herror
      · rw [otherwiseProgram] at herror
        cases hvalue : settings.falseValue.toFloat? with
        | some otherwise =>
          rw [hvalue] at herror
          cases herror
        | none =>
          rw [hvalue] at herror
          cases herror
          exact .inl rfl
  | ifThenElse ifToken condition thenToken body elseToken otherwise endToken ihCondition ihBody
      ihOtherwise =>
    simp only [Expression.nodes, List.forall_mem_cons, List.forall_mem_append] at hnodes
    obtain ⟨_, hcondition, hbody, hotherwise⟩ := hnodes
    rcases error_of_bind herror with herror | ⟨conditionMade, _, herror⟩
    · exact ihCondition hcondition herror
    · rcases error_of_bind herror with herror | ⟨bodyMade, _, herror⟩
      · exact ihBody hbody herror
      · rcases error_of_bind herror with herror | ⟨otherMade, _, herror⟩
        · exact ihOtherwise hotherwise herror
        · cases herror
  | binding letToken nameToken name equals body ih =>
    simp only [Expression.nodes, List.forall_mem_cons] at hnodes
    rcases error_of_bind herror with herror | ⟨bodyMade, _, herror⟩
    · exact ih hnodes.2 herror
    · cases herror
  | erroneous token message => exact absurd trivial (hnodes _ List.mem_cons_self)
  | foreign sort => exact absurd trivial (hnodes _ List.mem_cons_self)

end Compiler

theorem Expression.inoffensive_of_checkComplete {expression : Expression}
    (h : expression.checkComplete = .ok ()) : ∀ node ∈ expression.nodes, ¬node.Offends := by
  intro node hnode hoffends
  cases hfind : expression.nodes.find? fun node => decide node.Offends with
  | none => exact List.find?_eq_none.mp hfind node hnode (decide_eq_true hoffends)
  | some first =>
    obtain ⟨hfirst, front, back, hnodes, hfront⟩ := List.find?_eq_some_iff_append.mp hfind
    obtain ⟨error, herror, _⟩ :=
      checkComplete_of_offends hnodes (by simpa using hfront) (of_decide_eq_true hfirst)
    rw [h] at herror
    cases herror

namespace Compiler

-- What the check found to be complete has a program, values apart.
theorem compile_error_of_checkComplete {settings : Settings} {expression : Expression}
    {error : CompileError} (hcomplete : expression.checkComplete = .ok ())
    (herror : compile settings expression = .error error) : error.OfValue := by
  unfold compile at herror
  cases hmade : chain settings expression with
  | ok made =>
    rw [hmade] at herror
    cases herror
  | error reason =>
    rw [hmade] at herror
    cases herror
    exact chain_error_of_inoffensive (Expression.inoffensive_of_checkComplete hcomplete) hmade

theorem generate_of_check_error {limit : Nat} {settings : Settings} {expression : Expression}
    {error : CompileError} (h : expression.checkComplete = .error error) :
    generate limit settings expression = .error error := by
  rw [generate, h]
  rfl

end Compiler

-- An expression is refused for the first node that offends. If there is none, it is refused for a
-- missing token, and else just if a value for false conditions is needed that is beyond the finite
-- doubles. What passed the check has no node that the compiler does not know.
theorem refused_for_the_first_offence (limit : Nat) (settings : Settings)
    (expression : Expression)
    (hdigits : ∀ token value, Expression.integer token value ∈ expression.nodes →
      ∀ c ∈ (token.text.getD "").toList, Text.isDecimalDigit c = true)
    (hheight : expression.height ≤ limit) :
    (∀ front node back, expression.nodes = front ++ node :: back →
      (∀ other ∈ front, ¬other.Offends) → node.Offends →
        ∃ error, Compiler.generate limit settings expression = .error error ∧ error.Blames node) ∧
    ((∀ node ∈ expression.nodes, ¬node.Offends) →
      ((∃ token ∈ expression.tokenWalk.visited, token.isEmpty = true) →
        Compiler.generate limit settings expression = .error .missingToken) ∧
      ((∀ token ∈ expression.tokenWalk.visited, token.isEmpty = false) →
        let overflows := expression.lacksElse = true ∧
          ∃ n, settings.falseValue = .int n ∧ 2 ^ 1024 - 2 ^ 970 ≤ n.natAbs
        (overflows → Compiler.generate limit settings expression = .error .valueTooLarge) ∧
        (¬overflows → ∃ program, Compiler.generate limit settings expression = .ok program))) ∧
    (expression.checkComplete = .ok () → ∀ error,
      Compiler.compile settings expression = .error error →
        (∀ operator, error ≠ .unknownOperator operator) ∧ ∀ name, error ≠ .uncompilable name) := by
  refine ⟨fun front node back hnodes hfront hnode => ?_, fun hnodes => ⟨fun hmissing => ?_,
    fun hpresent => ?_⟩, fun hcomplete error herror => ?_⟩
  · obtain ⟨error, herror, hblames⟩ := Expression.checkComplete_of_offends hnodes hfront hnode
    exact ⟨error, Compiler.generate_of_check_error herror, hblames⟩
  · refine Compiler.generate_of_check_error ?_
    rw [Expression.checkComplete_of_inoffensive hnodes, if_pos (List.any_eq_true.mpr hmissing)]
  · have hclean := Expression.clean_of_inoffensive hnodes hdigits
    have hready : expression.Ready limit :=
      ⟨Expression.compilable_of_clean (expression.nodeWalk_eq ▸ hclean), hclean, hpresent, hheight⟩
    obtain ⟨hrefused, hmade⟩ := Compiler.generate_of_ready settings hready
    rw [settings.falseValue.toFloat?_eq_none_iff, and_comm] at hrefused hmade
    exact ⟨hrefused, hmade⟩
  · rcases Compiler.compile_error_of_checkComplete hcomplete herror with rfl | ⟨text, rfl⟩
    · simp
    · simp

-- In `(7 = <error>) + <null>` the first node that offends is the one with the `=`.
theorem refused_for_an_assignment :
    let digit : Token := ⟨.number, ⟨1, 1, 0, 1, "f"⟩, some "7"⟩
    let equals : Token := ⟨.equals, ⟨1, 3, 2, 1, "f"⟩, none⟩
    let plus : Token := ⟨.plus, ⟨1, 5, 4, 1, "f"⟩, none⟩
    let left : Expression := .integer digit 7
    let inner : Expression := .binary left equals (.erroneous .empty "Expected an expression")
    let outer : Expression := .binary inner plus (.foreign .null)
    ∃ error, Compiler.generate 3 {} outer = .error error ∧ error.Blames inner := by
  intro digit equals plus left inner outer
  have hdigits : ∀ token value, Expression.integer token value ∈ outer.nodes →
      ∀ c ∈ (token.text.getD "").toList, Text.isDecimalDigit c = true := by
    have htext : (digit.text.getD "").toList = ['7'] := by decide
    intro token value hnode c hc
    simp only [outer, inner, left, Expression.nodes, List.cons_append, List.nil_append,
      List.mem_cons, List.not_mem_nil, reduceCtorEq, false_or, or_false,
      Expression.integer.injEq] at hnode
    rw [hnode.1, htext, List.mem_singleton] at hc
    rw [hc]
    decide
  exact (refused_for_the_first_offence 3 {} outer hdigits (by decide)).1 [outer] inner _ rfl
    (by decide) rfl

end Calculator
