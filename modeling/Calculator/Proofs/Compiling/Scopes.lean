import Mathlib.Data.Finset.Basic
import Calculator.Proofs.Compiling.Failures
import Calculator.Proofs.Compiling.Triples

namespace Calculator

def Environment.names (environment : Environment Float) : Finset String :=
  (environment.bindings.map Prod.fst).toFinset

namespace Environment

theorem names_define (environment : Environment Float) (name : String) (value : Float) :
    (environment.define name value).names = insert name environment.names := by
  simp [names, define]

theorem exists_find?_of_mem {environment : Environment Float} {name : String}
    (h : name ∈ environment.names) : ∃ value, environment.find? name = some value := by
  rw [← Option.isSome_iff_exists, find?, List.lookup_isSome_iff]
  simpa [names] using h

end Environment

namespace Expression

-- The names that are surely bound once an expression has its value, if `names` are before.
def namesAfter : Expression → Finset String → Finset String
  | integer .., names | real .., names | reference .., names | erroneous .., names
  | foreign _, names => names
  | binary left _ right, names => right.namesAfter (left.namesAfter names)
  | ifThen _ condition _ _ _ _, names => condition.namesAfter names
  | ifThenElse _ condition _ body _ otherwise _, names =>
    body.namesAfter (condition.namesAfter names) ∩ otherwise.namesAfter (condition.namesAfter names)
  | binding _ _ name _ body, names => insert name (body.namesAfter names)

-- That every name is surely bound where it stands, if `names` are bound before the expression.
def WellBound : Expression → Finset String → Prop
  | integer .., _ | real .., _ | erroneous .., _ | foreign _, _ => True
  | reference _ name, names => name ∈ names
  | binary left _ right, names => left.WellBound names ∧ right.WellBound (left.namesAfter names)
  | ifThen _ condition _ body _ _, names =>
    condition.WellBound names ∧ body.WellBound (condition.namesAfter names)
  | ifThenElse _ condition _ body _ otherwise _, names =>
    condition.WellBound names ∧ body.WellBound (condition.namesAfter names) ∧
      otherwise.WellBound (condition.namesAfter names)
  | binding _ _ _ _ body, names => body.WellBound names

instance decidableWellBound : (expression : Expression) → (names : Finset String) →
    Decidable (expression.WellBound names)
  | integer .., _ | real .., _ | erroneous .., _ | foreign _, _ => .isTrue trivial
  | reference _ name, names => inferInstanceAs (Decidable (name ∈ names))
  | binary left _ right, names =>
    have := left.decidableWellBound names
    have := right.decidableWellBound (left.namesAfter names)
    inferInstanceAs (Decidable (_ ∧ _))
  | ifThen _ condition _ body _ _, names =>
    have := condition.decidableWellBound names
    have := body.decidableWellBound (condition.namesAfter names)
    inferInstanceAs (Decidable (_ ∧ _))
  | ifThenElse _ condition _ body _ otherwise _, names =>
    have := condition.decidableWellBound names
    have := body.decidableWellBound (condition.namesAfter names)
    have := otherwise.decidableWellBound (condition.namesAfter names)
    inferInstanceAs (Decidable (_ ∧ _ ∧ _))
  | binding _ _ _ _ body, names => body.decidableWellBound names

-- A body binds names, and what was bound stays so.
theorem subset_namesAfter (expression : Expression) (names : Finset String) :
    names ⊆ expression.namesAfter names := by
  induction expression generalizing names with
  | integer | real | reference | erroneous | foreign => exact subset_rfl
  | binary left operator right ihLeft ihRight => exact (ihLeft names).trans (ihRight _)
  | ifThen ifToken condition thenToken body endToken elseToken ihCondition ihBody =>
    exact ihCondition names
  | ifThenElse ifToken condition thenToken body elseToken otherwise endToken ihCondition ihBody
      ihOtherwise =>
    exact Finset.subset_inter ((ihCondition names).trans (ihBody _))
      ((ihCondition names).trans (ihOtherwise _))
  | binding letToken nameToken name equals body ih =>
    exact (ih names).trans (Finset.subset_insert _ _)

end Expression

-- That a run ended at a zero divisor under the strict policy.
def DividesUnder (policy : DivisionPolicy) (error : EvaluationError) : Prop :=
  policy = .error ∧ ∃ span, error = .divisionByZero span

-- From an environment that binds `names` a well-bound expression leads to one that binds the names
-- computed for it, unless it stops at a zero divisor.
theorem Compiles.meets_namesAfter {settings : Settings} {expression : Expression}
    {program : Program} (h : Compiles settings expression program) {names : Finset String}
    (hbound : expression.WellBound names) :
    program.Meets (fun environment => names ⊆ environment.names)
      (fun environment => expression.namesAfter names ⊆ environment.names)
      (fun error _ => DividesUnder settings.divisionByZero error) := by
  induction h generalizing names with
  | integer hnumber value => exact .constant _
  | real whole point fraction value => exact .constant value
  | reference token name =>
    refine .reference fun environment hnames hnone => ?_
    obtain ⟨value, hvalue⟩ := Environment.exists_find?_of_mem (hnames hbound)
    rw [hnone] at hvalue
    cases hvalue
  | binary hoperation hleft hright ihLeft ihRight =>
    refine (ihLeft hbound.1).andThen fun x => (ihRight hbound.2).andThen fun y => ?_
    exact .operation hoperation (fun _ hpolicy _ _ => ⟨hpolicy, _, rfl⟩) x y
  | @ifThen ifToken thenToken endToken elseToken condition body test inner otherwise hotherwise
      hcondition hbody ihCondition ihBody =>
    -- the names that the body binds are bound only if the condition holds
    refine (ihCondition hbound.1).branch ((ihBody hbound.2).mono ?_ fun _ _ hfails => hfails)
      (.constant otherwise)
    exact fun environment hnames => (body.subset_namesAfter _).trans hnames
  | ifThenElse hcondition hbody hother ihCondition ihBody ihOther =>
    refine (ihCondition hbound.1).branch
      ((ihBody hbound.2.1).mono ?_ fun _ _ hfails => hfails)
      ((ihOther hbound.2.2).mono ?_ fun _ _ hfails => hfails)
    · exact fun environment hnames => Finset.inter_subset_left.trans hnames
    · exact fun environment hnames => Finset.inter_subset_right.trans hnames
  | binding hbody ih =>
    refine (ih hbound).bindName fun environment value hnames => ?_
    rw [Environment.names_define]
    exact Finset.insert_subset_insert _ hnames

-- A complete expression has a program, values apart. If it is well-bound from the names bound
-- before, the program misses no name: it can only stop at a zero divisor, and that just under the
-- strict policy. With its value all names that were computed for it are bound.
theorem well_bound_misses_no_name (settings : Settings) (expression : Expression)
    (environment : Environment Float) (hcomplete : expression.checkComplete = .ok ())
    (hbound : expression.WellBound environment.names) :
    (∀ error, Compiler.compile settings expression = .error error → error.OfValue) ∧
    ∀ program, Compiler.compile settings expression = .ok program →
      (∀ name span after, program environment ≠ .error (.undefined name span) after) ∧
      (settings.divisionByZero = .ieee → ∃ value after, program environment = .ok value after) ∧
      (settings.divisionByZero = .error → ∀ error after,
        program environment = .error error after → ∃ span, error = .divisionByZero span) ∧
      ∀ value after, program environment = .ok value after →
        ∀ name ∈ expression.namesAfter environment.names,
          ∃ bound, after.find? name = some bound := by
  refine ⟨fun error herror => Compiler.compile_error_of_checkComplete hcomplete herror,
    fun program hprogram => ?_⟩
  have hrun := (Compiler.compiles_of_compile hprogram).meets_namesAfter hbound environment
    subset_rfl
  generalize program environment = run at hrun ⊢
  cases run with
  | ok value after =>
    refine ⟨by simp, fun _ => ⟨value, after, rfl⟩, by simp, ?_⟩
    rintro _ _ ⟨⟩ name hname
    exact Environment.exists_find?_of_mem (hrun hname)
  | error error after =>
    obtain ⟨hpolicy, span, rfl⟩ := hrun
    refine ⟨by simp, fun hlenient => ?_, ?_, by simp⟩
    · rw [hpolicy] at hlenient
      cases hlenient
    · rintro _ _ _ ⟨⟩
      exact ⟨span, rfl⟩

-- Where `y` is zero, `if y then let x = y else let x = 0.0 end / x` has a value under the lenient
-- policy and binds `x`.
theorem well_bound_branches :
    let token (kind : Kind) (offset : Nat) : Token := ⟨kind, ⟨1, offset + 1, offset, 1, "f"⟩, none⟩
    let settings : Settings := { divisionByZero := .ieee }
    let body : Expression := .binding (token .letWord 2) (token .identifier 3) "x"
      (token .equals 4) (.reference (token .identifier 5) "y")
    let otherwise : Expression := .binding (token .letWord 7) (token .identifier 8) "x"
      (token .equals 9)
      (.real (token .number 10) (token .period 11) (token .number 12) Decimal.zero)
    let choice : Expression := .ifThenElse (token .ifWord 0) (.reference (token .identifier 1) "y")
      (token .thenWord 2) body (token .elseWord 6) otherwise (token .endWord 13)
    let quotient : Expression :=
      .binary choice (token .slash 14) (.reference (token .identifier 15) "x")
    let environment : Environment Float := ⟨[("y", Decimal.zero)]⟩
    ∃ program, Compiler.compile settings quotient = .ok program ∧
      ∃ value after bound, program environment = .ok value after ∧
        after.find? "x" = some bound := by
  intro token settings body otherwise choice quotient environment
  have hcomplete : quotient.checkComplete = .ok () := by cbv
  obtain ⟨_, hprogram⟩ := well_bound_misses_no_name settings quotient environment hcomplete
    (by decide)
  obtain ⟨_, hvalue, _, hnames⟩ := hprogram _ rfl
  obtain ⟨value, after, hrun⟩ := hvalue rfl
  obtain ⟨bound, hfind⟩ := hnames value after hrun "x"
    (by simp [quotient, choice, body, otherwise, Expression.namesAfter])
  exact ⟨_, rfl, value, after, bound, hrun, hfind⟩

end Calculator
