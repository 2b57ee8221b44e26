import Calculator.Proofs.Compiling.Congruence

namespace Calculator

-- That a run ended at a zero divisor.
def Run.Divides (run : Run) : Prop :=
  ∃ span after, run = .error (.divisionByZero span) after

theorem Run.not_divides_ok (value : Float) (after : Environment Float) :
    ¬Divides (.ok value after) := by
  rintro ⟨span, environment, ⟨⟩⟩

-- The lenient program ends as the strict one does, unless that ends at a zero divisor. It never
-- ends there itself.
structure Relaxes (strict lenient : Program) : Prop where
  same : ∀ environment, ¬Run.Divides (strict environment) →
    lenient environment = strict environment
  whole : ∀ environment, ¬Run.Divides (lenient environment)

namespace Relaxes

variable {strict lenient : Program}

theorem refl (h : ∀ environment, ¬Run.Divides (strict environment)) : Relaxes strict strict :=
  ⟨fun _ _ => rfl, h⟩

theorem constant (value : Float) : Relaxes (.constant value) (.constant value) :=
  .refl fun _ => Run.not_divides_ok _ _

theorem reference (name : String) (span : Span) :
    Relaxes (.reference name span) (.reference name span) := by
  refine .refl fun environment => ?_
  unfold Program.reference Environment.get
  cases environment.find? name with
  | some value => exact Run.not_divides_ok _ _
  | none => rintro ⟨_, _, ⟨⟩⟩

theorem andThen {next next' : Float → Program} (h : Relaxes strict lenient)
    (hnext : ∀ value, Relaxes (next value) (next' value)) :
    Relaxes (strict.andThen next) (lenient.andThen next') := by
  constructor
  · intro environment hwhole
    have hsame := h.same environment
    unfold Program.andThen at hwhole ⊢
    cases hfirst : strict environment with
    | ok value after =>
      rw [hfirst] at hsame hwhole
      rw [hsame (Run.not_divides_ok _ _)]
      exact (hnext value).same after hwhole
    | error error after =>
      rw [hfirst] at hsame hwhole
      rw [hsame hwhole]
  · intro environment
    have hwhole := h.whole environment
    unfold Program.andThen
    cases hfirst : lenient environment with
    | ok value after => exact (hnext value).whole after
    | error error after =>
      rw [hfirst] at hwhole
      exact hwhole

theorem operation (operator : Operator) (span : Span) (x y : Float) :
    Relaxes (.ofResult (operator.apply .error span x y))
      (.ofResult (operator.apply .ieee span x y)) := by
  cases operator with
  | divide =>
    unfold Operator.apply Operator.quotient
    dsimp only
    split
    · exact ⟨fun _ hnone => absurd ⟨_, _, rfl⟩ hnone, fun _ => Run.not_divides_ok _ _⟩
    · exact .refl fun _ => Run.not_divides_ok _ _
  | _ => exact .refl fun _ => Run.not_divides_ok _ _

end Relaxes

namespace Settings

def strict (settings : Settings) : Settings := { settings with divisionByZero := .error }

def lenient (settings : Settings) : Settings := { settings with divisionByZero := .ieee }

end Settings

-- The policies compile the same expressions, to programs of which the lenient one goes further.
theorem Relaxes.congruence (settings : Settings) :
    Congruence Relaxes settings.strict settings.lenient id where
  kind _ := rfl
  text _ := rfl
  falseValue := rfl
  constant := .constant
  reference name token := .reference name token.span
  binding _ _ := .refl fun _ => Run.not_divides_ok _ _
  operation operator token := .operation operator token.span
  andThen := .andThen

namespace Compiler

theorem compile_policies (settings : Settings) (expression : Expression) :
    (∃ error, compile settings.strict expression = .error error ∧
      compile settings.lenient expression = .error error) ∨
    ∃ strict lenient, compile settings.strict expression = .ok strict ∧
      compile settings.lenient expression = .ok lenient ∧ Relaxes strict lenient := by
  have hagree := compile_agrees (Relaxes.congruence settings) expression
  simp only [Expression.mapTokens_id, CompileError.mapTokens_id] at hagree
  exact hagree

theorem compile_relaxes {settings : Settings} {expression : Expression} {strict lenient : Program}
    (hstrict : compile settings.strict expression = .ok strict)
    (hlenient : compile settings.lenient expression = .ok lenient) : Relaxes strict lenient := by
  rcases compile_policies settings expression with ⟨error, herror, _⟩ | ⟨_, _, h, h', hrelaxes⟩
  · rw [hstrict] at herror
    cases herror
  · rw [hstrict] at h
    rw [hlenient] at h'
    cases h
    cases h'
    exact hrelaxes

theorem compile_refused_iff (settings : Settings) (expression : Expression)
    (error : CompileError) :
    compile settings.strict expression = .error error ↔
      compile settings.lenient expression = .error error := by
  rcases compile_policies settings expression with ⟨reason, h, h'⟩ | ⟨_, _, h, h', _⟩
  · rw [h, h']
  · rw [h, h']
    exact iff_of_false (by simp) (by simp)

end Compiler

-- What a quotient of `x` by the zero `y` is for doubles: not a number if `x` is zero or not a
-- number, and else the infinity whose sign is the product of the two signs.
structure QuotientByZero (x y z : Float) : Prop where
  undefined : (x == Decimal.zero || x.isNaN) = true → z.isNaN = true
  infinite : (x == Decimal.zero || x.isNaN) = false →
    z.isInf = true ∧ Decimal.isNegative z = (Decimal.isNegative x != Decimal.isNegative y)

theorem Decimal.withSign_infinity (negative : Bool) :
    (withSign negative infinity).isInf = true ∧
      isNegative (withSign negative infinity) = negative := by
  cases negative <;> decide

theorem Operator.quotientByZero_divideByZero (x y : Float) :
    QuotientByZero x y (divideByZero x y) := by
  unfold divideByZero
  constructor
  · intro hundefined
    rw [if_pos hundefined]
    decide
  · intro hinfinite
    rw [if_neg (by rw [hinfinite]; decide)]
    exact Decimal.withSign_infinity _

namespace Compiler

-- What a division does under the lenient policy once its operands are there.
theorem lenient_division {settings : Settings} {left right : Expression} {operator : Token}
    {first second program : Program} (hslash : operator.kind = .slash)
    (hfirst : compile settings.lenient left = .ok first)
    (hsecond : compile settings.lenient right = .ok second)
    (hprogram : compile settings.lenient (.binary left operator right) = .ok program) :
    program = first.andThen fun x => second.andThen fun y =>
      .ofResult (Operator.quotient .ieee operator.span x y) := by
  unfold compile at hfirst hsecond hprogram
  rw [chain, hslash] at hprogram
  cases hleft : chain settings.lenient left with
  | error error =>
    rw [hleft] at hfirst
    cases hfirst
  | ok leftMade =>
    cases hright : chain settings.lenient right with
    | error error =>
      rw [hright] at hsecond
      cases hsecond
    | ok rightMade =>
      rw [hleft] at hfirst hprogram
      rw [hright] at hsecond hprogram
      cases hfirst
      cases hsecond
      cases hprogram
      exact Chain.step_eq_andThen _ _ _

end Compiler

-- An expression has a program under one policy just if it has one under the other. Where the strict
-- program yields a value or misses a name, the lenient one yields the same value with the same
-- bindings or misses the same name. The lenient one never ends at a zero divisor, its quotient is
-- that of doubles there.
theorem policies_part_at_zero_divisors (settings : Settings) (expression : Expression) :
    (∀ error, Compiler.compile settings.strict expression = .error error ↔
      Compiler.compile settings.lenient expression = .error error) ∧
    (∀ strict lenient, Compiler.compile settings.strict expression = .ok strict →
      Compiler.compile settings.lenient expression = .ok lenient → ∀ environment,
        (∀ value after, strict environment = .ok value after →
          lenient environment = .ok value after) ∧
        (∀ name span after, strict environment = .error (.undefined name span) after →
          lenient environment = .error (.undefined name span) after) ∧
        ∀ span after, lenient environment ≠ .error (.divisionByZero span) after) ∧
    ∀ left operator right first second lenient, expression = .binary left operator right →
      operator.kind = .slash → Compiler.compile settings.lenient left = .ok first →
      Compiler.compile settings.lenient right = .ok second →
      Compiler.compile settings.lenient expression = .ok lenient →
      ∀ environment x middle y after, first environment = .ok x middle →
        second middle = .ok y after → (y == Decimal.zero) = true →
          ∃ z, lenient environment = .ok z after ∧ QuotientByZero x y z := by
  refine ⟨Compiler.compile_refused_iff settings expression, ?_, ?_⟩
  · intro strict lenient hstrict hlenient environment
    have hrelaxes := Compiler.compile_relaxes hstrict hlenient
    refine ⟨fun value after hvalue => ?_, fun name span after hmissing => ?_,
      fun span after hdivides => hrelaxes.whole environment ⟨span, after, hdivides⟩⟩
    · rw [hrelaxes.same environment (hvalue ▸ Run.not_divides_ok _ _), hvalue]
    · rw [hrelaxes.same environment (by rw [hmissing]; rintro ⟨_, _, ⟨⟩⟩), hmissing]
  · rintro left operator right first second lenient rfl hslash hfirst hsecond hlenient environment
      x middle y after hx hy hzero
    refine ⟨Operator.divideByZero x y, ?_, Operator.quotientByZero_divideByZero x y⟩
    rw [Compiler.lenient_division hslash hfirst hsecond hlenient]
    simp only [Program.andThen, hx, hy, Operator.quotient, hzero, if_true, Program.ofResult]

-- Dividing a name by zero misses the name under both policies, and where the name is bound to minus
-- one it yields an infinity under the lenient one.
theorem name_divided_by_zero :
    let digit : Token := ⟨.number, ⟨1, 5, 4, 1, "f"⟩, some "0"⟩
    let point : Token := ⟨.period, ⟨1, 6, 5, 1, "f"⟩, none⟩
    let slash : Token := ⟨.slash, ⟨1, 3, 2, 1, "f"⟩, none⟩
    let name : Token := ⟨.identifier, ⟨1, 1, 0, 1, "f"⟩, some "x"⟩
    let quotient : Expression :=
      .binary (.reference name "x") slash (.real digit point digit Decimal.zero)
    let bound : Environment Float := ⟨[("x", -Decimal.one)]⟩
    ∃ lenient, Compiler.compile ({} : Settings).lenient quotient = .ok lenient ∧
      lenient {} = .error (.undefined "x" (some name.span)) {} ∧
      ∃ z, lenient bound = .ok z bound ∧ z.isInf = true ∧ Decimal.isNegative z = true := by
  intro digit point slash name quotient bound
  obtain ⟨_, hrelaxes, hquotient⟩ := policies_part_at_zero_divisors {} quotient
  obtain ⟨_, hmissing, _⟩ := hrelaxes _ _ rfl rfl {}
  obtain ⟨z, hz, hspec⟩ :=
    hquotient _ slash _ _ _ _ rfl rfl rfl rfl rfl bound _ bound _ bound rfl rfl (by decide)
  obtain ⟨hinfinite, hsign⟩ := hspec.infinite (by decide)
  exact ⟨_, rfl, hmissing "x" _ {} rfl, z, hz, hinfinite, hsign.trans (by decide)⟩

end Calculator
