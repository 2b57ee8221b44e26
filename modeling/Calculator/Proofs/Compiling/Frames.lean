import Calculator.Proofs.Compiling.Failures
import Calculator.Proofs.Compiling.Triples

namespace Calculator

namespace Environment

variable {α : Type}

-- The bindings of `made` on top of the others, the last one first.
def extend (environment : Environment α) (made : List (String × α)) : Environment α :=
  ⟨made ++ environment.bindings⟩

theorem extend_extend (environment : Environment α) (made later : List (String × α)) :
    (environment.extend made).extend later = environment.extend (later ++ made) := by
  rw [extend, extend, extend, List.append_assoc]

theorem find?_extend (environment : Environment α) (made : List (String × α)) (name : String) :
    (environment.extend made).find? name = (made.lookup name).or (environment.find? name) :=
  List.lookup_append

theorem isSome_find?_extend {environment : Environment α} {name : String}
    (h : (environment.find? name).isSome) (made : List (String × α)) :
    ((environment.extend made).find? name).isSome := by
  rw [find?_extend, Option.isSome_or, h, Bool.or_true]

theorem find?_extend_of_notMem {made : List (String × α)} {name : String}
    (h : ∀ entry ∈ made, entry.1 ≠ name) (environment : Environment α) :
    (environment.extend made).find? name = environment.find? name := by
  have hnone : made.lookup name = none := by
    rw [List.lookup_eq_none_iff]
    intro entry hentry
    simpa using (h entry hentry).symm
  rw [find?_extend, hnone, Option.none_or]

-- That every name of which `asks` holds is unbound in both environments, or bound to one value.
def AgreeOn (asks : String → Prop) (environment environment' : Environment α) : Prop :=
  ∀ name, asks name → environment.find? name = environment'.find? name

theorem AgreeOn.extend {asks : String → Prop} {environment environment' : Environment α}
    (h : environment.AgreeOn asks environment') (made : List (String × α)) :
    (environment.extend made).AgreeOn asks (environment'.extend made) := by
  intro name hasks
  rw [find?_extend, find?_extend, h name hasks]

end Environment

-- Two runs from `start` and `start'` that end with one value or one error and have made the same
-- bindings, all of names of which `binds` holds.
inductive Run.Alike (binds : String → Prop) (start start' : Environment Float) : Run → Run → Prop
  where
  | ok (value : Float) {made : List (String × Float)} (hmade : ∀ entry ∈ made, binds entry.1) :
      Alike binds start start' (.ok value (start.extend made)) (.ok value (start'.extend made))
  | error (error : EvaluationError) {made : List (String × Float)}
      (hmade : ∀ entry ∈ made, binds entry.1) :
      Alike binds start start' (.error error (start.extend made))
        (.error error (start'.extend made))

theorem Run.Alike.behind {binds : String → Prop} {start start' : Environment Float}
    {made : List (String × Float)} {run run' : Run} (hmade : ∀ entry ∈ made, binds entry.1)
    (h : Run.Alike binds (start.extend made) (start'.extend made) run run') :
    Run.Alike binds start start' run run' := by
  cases h with
  | ok value hlater =>
    rw [Environment.extend_extend, Environment.extend_extend]
    exact .ok value (List.forall_mem_append.mpr ⟨hlater, hmade⟩)
  | error error hlater =>
    rw [Environment.extend_extend, Environment.extend_extend]
    exact .error error (List.forall_mem_append.mpr ⟨hlater, hmade⟩)

-- A program that asks only for names of which `asks` holds and binds only names of which `binds`
-- holds.
def Program.Depends (asks binds : String → Prop) (program : Program) : Prop :=
  ∀ start start' : Environment Float, start.AgreeOn asks start' →
    Run.Alike binds start start' (program start) (program start')

namespace Program.Depends

variable {asks binds : String → Prop}

theorem ofResult (result : Except EvaluationError Float) :
    (Program.ofResult result).Depends asks binds := by
  intro start start' _
  cases result with
  | ok value => exact Run.Alike.ok value (List.forall_mem_nil _)
  | error error => exact Run.Alike.error error (List.forall_mem_nil _)

theorem constant (value : Float) : (Program.constant value).Depends asks binds :=
  ofResult (.ok value)

theorem reference {name : String} (hasks : asks name) (span : Span) :
    (Program.reference name span).Depends asks binds := by
  intro start start' hagree
  unfold Program.reference Environment.get
  rw [hagree name hasks]
  cases start'.find? name with
  | none => exact Run.Alike.error _ (List.forall_mem_nil _)
  | some value => exact Run.Alike.ok value (List.forall_mem_nil _)

theorem binding {name : String} (hbinds : binds name) (value : Float) :
    (Program.binding name value).Depends asks binds := by
  intro start start' _
  exact Run.Alike.ok value (List.forall_mem_singleton.mpr hbinds)

-- What was bound meanwhile is the same in both runs, so they still agree.
theorem andThen {first : Program} {next : Float → Program} (hfirst : first.Depends asks binds)
    (hnext : ∀ value, (next value).Depends asks binds) :
    (first.andThen next).Depends asks binds := by
  intro start start' hagree
  have halike := hfirst start start' hagree
  unfold Program.andThen
  generalize first start = run at halike ⊢
  generalize first start' = run' at halike ⊢
  cases halike with
  | ok value hmade => exact (hnext value _ _ (hagree.extend _)).behind hmade
  | error error hmade => exact Run.Alike.error error hmade

theorem branch {condition body otherwise : Program} (hcondition : condition.Depends asks binds)
    (hbody : body.Depends asks binds) (hotherwise : otherwise.Depends asks binds) :
    (Program.branch condition body otherwise).Depends asks binds := by
  rw [branch_eq_andThen]
  refine hcondition.andThen fun value => ?_
  split
  · exact hotherwise
  · exact hbody

theorem bindName {name : String} {body : Program} (hbinds : binds name)
    (hbody : body.Depends asks binds) : (Program.bindName name body).Depends asks binds := by
  rw [bindName_eq_andThen]
  exact hbody.andThen fun value => binding hbinds value

end Program.Depends

namespace Expression

-- That a name stands somewhere in the expression as a reference.
def Asks (expression : Expression) (name : String) : Prop :=
  ∃ token, .reference token name ∈ expression.nodes

-- That a name is bound somewhere in the expression.
def Binds (expression : Expression) (name : String) : Prop :=
  ∃ letToken nameToken equals body, .binding letToken nameToken name equals body ∈ expression.nodes

-- That `asks` holds of the names that an expression asks for and `binds` of those that it binds.
structure Keeps (asks binds : String → Prop) (expression : Expression) : Prop where
  asks : ∀ name, expression.Asks name → asks name
  binds : ∀ name, expression.Binds name → binds name

theorem Keeps.child {asks binds : String → Prop} {expression child : Expression}
    (h : expression.Keeps asks binds) (hchild : child ∈ expression.children) :
    child.Keeps asks binds := by
  refine ⟨fun name hname => h.asks name ?_, fun name hname => h.binds name ?_⟩
  · obtain ⟨token, hnode⟩ := hname
    exact ⟨token, nodes_subset hchild hnode⟩
  · obtain ⟨letToken, nameToken, equals, body, hnode⟩ := hname
    exact ⟨letToken, nameToken, equals, body, nodes_subset hchild hnode⟩

end Expression

-- The parts of an expression ask for no other names than the expression and bind no others, so the
-- same `asks` and `binds` serve for all of them.
theorem Compiles.depends {settings : Settings} {expression : Expression} {program : Program}
    (h : Compiles settings expression program) {asks binds : String → Prop}
    (hkeeps : expression.Keeps asks binds) : program.Depends asks binds := by
  induction h with
  | integer hnumber value => exact .constant _
  | real whole point fraction value => exact .constant value
  | reference token name =>
    exact .reference (hkeeps.asks name ⟨token, List.mem_singleton_self _⟩) token.span
  | binary hoperation hleft hright ihLeft ihRight =>
    have hfirst := ihLeft (hkeeps.child (by simp [Expression.children]))
    have hsecond := ihRight (hkeeps.child (by simp [Expression.children]))
    exact hfirst.andThen fun x => hsecond.andThen fun y => .ofResult _
  | ifThen hotherwise hcondition hbody ihCondition ihBody =>
    exact (ihCondition (hkeeps.child (by simp [Expression.children]))).branch
      (ihBody (hkeeps.child (by simp [Expression.children]))) (.constant _)
  | ifThenElse hcondition hbody hother ihCondition ihBody ihOther =>
    exact (ihCondition (hkeeps.child (by simp [Expression.children]))).branch
      (ihBody (hkeeps.child (by simp [Expression.children])))
      (ihOther (hkeeps.child (by simp [Expression.children])))
  | @binding letToken nameToken equals name body inner hbody ih =>
    have hname := hkeeps.binds name ⟨letToken, nameToken, equals, body, List.mem_cons_self⟩
    exact .bindName hname (ih (hkeeps.child (by simp [Expression.children])))

-- A complete expression has a program, values apart. A successful run of it unbinds no name and
-- rebinds at most the names that the expression binds. From two environments that agree on the
-- names it asks for, the program ends with the same value or the same error and makes the same
-- bindings in the same order.
theorem runs_follow_their_names (settings : Settings) (expression : Expression)
    (hcomplete : expression.checkComplete = .ok ()) :
    (∀ error, Compiler.compile settings expression = .error error → error.OfValue) ∧
    ∀ program, Compiler.compile settings expression = .ok program →
      (∀ environment value after, program environment = .ok value after →
        (∀ name, (environment.find? name).isSome → (after.find? name).isSome) ∧
        ∀ name, ¬expression.Binds name → after.find? name = environment.find? name) ∧
      ∀ environment environment' : Environment Float,
        environment.AgreeOn expression.Asks environment' →
          Run.Alike expression.Binds environment environment' (program environment)
            (program environment') := by
  refine ⟨fun error herror => Compiler.compile_error_of_checkComplete hcomplete herror,
    fun program hprogram => ?_⟩
  have hdepends : program.Depends expression.Asks expression.Binds :=
    (Compiler.compiles_of_compile hprogram).depends ⟨fun _ => id, fun _ => id⟩
  refine ⟨fun environment value after hrun => ?_, hdepends⟩
  have halike := hdepends environment environment fun _ _ => rfl
  rw [hrun] at halike
  cases halike with
  | @ok _ made hmade =>
    refine ⟨fun name hbound => Environment.isSome_find?_extend hbound made, fun name hname => ?_⟩
    refine Environment.find?_extend_of_notMem (fun entry hentry hsame => ?_) environment
    exact hname (hsame ▸ hmade entry hentry)

-- What `if y then let x = y end` does depends neither on what `x` nor on what `z` was before, and
-- `z` stays what it was.
theorem run_follows_one_name :
    let token (kind : Kind) (offset : Nat) : Token := ⟨kind, ⟨1, offset + 1, offset, 1, "f"⟩, none⟩
    let body : Expression := .binding (token .letWord 10) (token .identifier 14) "x"
      (token .equals 16) (.reference (token .identifier 18) "y")
    let choice : Expression := .ifThen (token .ifWord 0) (.reference (token .identifier 3) "y")
      (token .thenWord 5) body (token .endWord 20) .empty
    let environment : Environment Float := ⟨[("y", Decimal.one)]⟩
    let environment' : Environment Float :=
      ⟨[("z", Decimal.zero), ("x", Decimal.zero), ("y", Decimal.one)]⟩
    ∃ program, Compiler.compile {} choice = .ok program ∧
      Run.Alike choice.Binds environment environment' (program environment)
        (program environment') ∧
      ∀ value after, program environment' = .ok value after →
        after.find? "z" = some Decimal.zero := by
  intro token body choice environment environment'
  have hcomplete : choice.checkComplete = .ok () := by cbv
  have hagree : environment.AgreeOn choice.Asks environment' := by
    rintro name ⟨asking, hnode⟩
    simp only [choice, body, Expression.nodes, List.cons_append, List.nil_append, List.mem_cons,
      List.not_mem_nil, reduceCtorEq, false_or, or_false, Expression.reference.injEq] at hnode
    obtain ⟨_, rfl⟩ | ⟨_, rfl⟩ := hnode <;> rfl
  have hfree : ¬choice.Binds "z" := by
    rintro ⟨letToken, nameToken, equals, value, hnode⟩
    simp [choice, body, Expression.nodes] at hnode
  obtain ⟨_, hprogram⟩ := runs_follow_their_names {} choice hcomplete
  obtain ⟨hframe, hdepends⟩ := hprogram _ rfl
  exact ⟨_, rfl, hdepends environment environment' hagree,
    fun value after hrun => (hframe environment' value after hrun).2 "z" hfree⟩

end Calculator
