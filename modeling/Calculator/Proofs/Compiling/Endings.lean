import Mathlib.Data.List.Forall2
import Calculator.Session
import Calculator.Proofs.Compiling.Readiness
import Calculator.Proofs.Decimal.Range
import Calculator.Proofs.Parsing.Reports

namespace Calculator

inductive Ending where
  -- the text has problems
  | diagnosed (diagnostics : List Diagnostic)
  | valued (value : Float)
  -- the text has a meaning, but no value
  | failed (error : EvaluationError)
  -- the value of false conditions is needed and is beyond the finite doubles
  | overflowed

-- The line that shows a diagnostic.
def Diagnostic.Shown (diagnostic : Diagnostic) (line : String) : Prop :=
  ∃ span, diagnostic.span = some span ∧
    line = diagnostic.kind.title ++ ": " ++ diagnostic.message ++ " (" ++ toString span.start ++ ")"

-- That a line is answered so.
def Answers (settings : Settings) (line : String) (ok : Bool) (lines : List String) : Prop :=
  ∃ log, respond settings line = .ok { ok, lines, log }

-- That the calculator ends so with a text.
def Ending.Holds (settings : Settings) (text : String) : Ending → Prop
  | diagnosed diagnostics =>
    diagnostics ≠ [] ∧ (Reading.ofString text).diagnostics = diagnostics ∧
      evaluate (.ofString text) settings = .error (.compile (.diagnosed diagnostics)) ∧
      ∃ lines, Answers settings text false lines ∧
        List.Forall₂ Diagnostic.Shown diagnostics lines
  | valued value =>
    (Reading.ofString text).diagnostics = [] ∧
      evaluate (.ofString text) settings = .ok value ∧
      Answers settings text true [Decimal.answer value]
  | failed error =>
    (Reading.ofString text).diagnostics = [] ∧
      evaluate (.ofString text) settings = .error (.run error) ∧
      Answers settings text false ["error: " ++ error.message]
  | overflowed =>
    (Reading.ofString text).diagnostics = [] ∧
      (Reading.ofString text).expression.lacksElse = true ∧
      (∃ n, settings.falseValue = .int n ∧ 2 ^ 1024 - 2 ^ 970 ≤ n.natAbs) ∧
      evaluate (.ofString text) settings = .error (.compile .valueTooLarge) ∧
      respond settings text = .error .valueTooLarge

-- That an expression has all its parts, and they have a meaning.
structure Expression.Whole (expression : Expression) : Prop where
  foreign : expression.nodeWalk.foreign = none
  erroneous : ∀ token message, erroneous token message ∉ expression.nodeWalk.visited
  operators : ∀ left operator right, binary left operator right ∈ expression.nodeWalk.visited →
    operator.kind.isBinary = true
  tokens : ∀ token ∈ expression.tokenWalk.visited, token.isEmpty = false

theorem Expression.Ready.whole {limit : Nat} {expression : Expression}
    (h : expression.Ready limit) : expression.Whole := by
  have hfault : ∀ node ∈ expression.nodeWalk.visited, node.fault? = none := fun node hnode =>
    (h.nodes.plain node hnode).fault
  refine ⟨h.nodes.foreign, fun token message hnode => ?_, fun left operator right hnode => ?_,
    h.tokens⟩
  · have hnone := hfault _ hnode
    cases hnone
  · have hnone := hfault _ hnode
    simpa [fault?] using hnone

theorem Number.toFloat?_eq_none_iff (number : Number) :
    number.toFloat? = none ↔ ∃ n, number = .int n ∧ 2 ^ 1024 - 2 ^ 970 ≤ n.natAbs := by
  cases number with
  | int n =>
    have hbeyond := Decimal.ofInt?_eq_none_iff n
    constructor
    · exact fun hnone => ⟨n, rfl, hbeyond.mp hnone⟩
    · rintro ⟨_, ⟨⟩, hle⟩
      exact hbeyond.mpr hle
  | float x =>
    constructor
    · intro hnone
      cases hnone
    · rintro ⟨n, hint, _⟩
      cases hint

theorem forall₂_shown_answer {diagnostics : List Diagnostic}
    (h : ∀ d ∈ diagnostics, ∃ span, d.span = some span) :
    List.Forall₂ Diagnostic.Shown diagnostics (diagnostics.map Diagnostic.answer) := by
  rw [List.forall₂_map_right_iff, List.forall₂_same]
  intro d hd
  obtain ⟨span, hspan⟩ := h d hd
  exact ⟨span, hspan, by simp [Diagnostic.answer, hspan]⟩

namespace Ending

variable {settings : Settings} {text : String}

-- What is told of the value of a text.
def result : Ending → Except Failure Float
  | diagnosed diagnostics => .error (.compile (.diagnosed diagnostics))
  | valued value => .ok value
  | failed error => .error (.run error)
  | overflowed => .error (.compile .valueTooLarge)

theorem result_injective {ending ending' : Ending} (h : ending.result = ending'.result) :
    ending = ending' := by
  cases ending <;> cases ending' <;> simp_all [result]

theorem Holds.result_eq {ending : Ending} (h : ending.Holds settings text) :
    evaluate (.ofString text) settings = ending.result := by
  cases ending with
  | diagnosed diagnostics => exact h.2.2.1
  | valued value => exact h.2.1
  | failed error => exact h.2.1
  | overflowed => exact h.2.2.2.1

theorem holds_of_diagnosed (h : (Reading.ofString text).diagnostics ≠ []) :
    (diagnosed (Reading.ofString text).diagnostics).Holds settings text := by
  refine ⟨h, rfl, ?_, (Reading.ofString text).diagnostics.map Diagnostic.answer,
    ⟨(Reading.ofString text).diagnostics.map .diagnosed, ?_⟩, forall₂_shown_answer fun d hd => ?_⟩
  · unfold evaluate
    exact if_pos h
  · unfold respond
    exact if_pos h
  · obtain ⟨token, _, hspan⟩ := Reading.anchor_of_mem hd
    exact ⟨token.span, hspan⟩

theorem evaluate_of_clean (h : (Reading.ofString text).diagnostics = []) :
    evaluate (.ofString text) settings =
      match Compiler.generate Reading.maxHeight settings (Reading.ofString text).expression with
      | .error error => .error (.compile error)
      | .ok program => program.value.mapError .run := by
  unfold evaluate
  exact if_neg (not_not.mpr h)

theorem holds_of_program (h : (Reading.ofString text).diagnostics = []) {program : Program}
    (hprogram : Compiler.generate Reading.maxHeight settings (Reading.ofString text).expression =
      .ok program) :
    ∃ ending : Ending, ending.Holds settings text := by
  have hvalue : evaluate (.ofString text) settings = program.value.mapError .run := by
    rw [evaluate_of_clean h, hprogram]
  cases hresult : program.value with
  | ok value =>
    refine ⟨valued value, h, by rw [hvalue, hresult]; rfl, ?_⟩
    simp [Answers, respond, h, hprogram, hresult]
  | error error =>
    refine ⟨failed error, h, by rw [hvalue, hresult]; rfl, ?_⟩
    simp [Answers, respond, h, hprogram, hresult]

theorem holds_of_overflow (h : (Reading.ofString text).diagnostics = [])
    (hnone : settings.falseValue.toFloat? = none)
    (hlacks : (Reading.ofString text).expression.lacksElse = true) :
    overflowed.Holds settings text := by
  have hrefused :=
    (Compiler.generate_of_ready settings (Reading.ready_ofString h)).1 ⟨hnone, hlacks⟩
  refine ⟨h, hlacks, settings.falseValue.toFloat?_eq_none_iff.mp hnone, ?_, ?_⟩
  · rw [evaluate_of_clean h, hrefused]
  · simp [respond, h, hrefused, CompileError.isFatal]

theorem exists_holds (settings : Settings) (text : String) :
    ∃ ending : Ending, ending.Holds settings text := by
  by_cases hclean : (Reading.ofString text).diagnostics = []
  · obtain ⟨hrefused, hmade⟩ :=
      Compiler.generate_of_ready settings (Reading.ready_ofString hclean)
    by_cases hoverflow : settings.falseValue.toFloat? = none ∧
        (Reading.ofString text).expression.lacksElse = true
    · exact ⟨overflowed, holds_of_overflow hclean hoverflow.1 hoverflow.2⟩
    · obtain ⟨program, hprogram⟩ := hmade hoverflow
      exact holds_of_program hclean hprogram
  · exact ⟨_, holds_of_diagnosed hclean⟩

end Ending

-- A text ends in just one way. Without diagnostics its expression is whole, and only the value of
-- false conditions can keep it from being compiled.
theorem every_text_ends_once (settings : Settings) (text : String) :
    (∃! ending : Ending, ending.Holds settings text) ∧
      ((Reading.ofString text).diagnostics = [] →
        (Reading.ofString text).expression.Whole ∧
          ∀ limit error, Reading.maxHeight ≤ limit →
            Compiler.generate limit settings (Reading.ofString text).expression = .error error →
              error = .valueTooLarge) := by
  refine ⟨?_, fun hclean => ⟨(Reading.ready_ofString hclean).whole, ?_⟩⟩
  · obtain ⟨ending, hending⟩ := Ending.exists_holds settings text
    refine ⟨ending, hending, fun other hother => Ending.result_injective ?_⟩
    rw [← hother.result_eq, hending.result_eq]
  · intro limit error hlimit herror
    exact Compiler.eq_valueTooLarge_of_ready (Reading.ready_of_clean hclean hlimit) herror

-- The name `x` is whole.
theorem name_whole :
    (Reading.ofString "x").diagnostics = [] ∧ (Reading.ofString "x").expression.Whole :=
  have hclean : (Reading.ofString "x").diagnostics = [] := by cbv
  ⟨hclean, ((every_text_ends_once {} "x").2 hclean).1⟩

end Calculator
