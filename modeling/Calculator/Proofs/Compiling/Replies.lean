import Calculator.Proofs.Compiling.Endings

namespace Calculator

namespace Settings

-- A mapping that holds the settings.
def entries (settings : Settings) : List (Data × Data) :=
  [(.text "division_by_zero", .text settings.divisionByZero.name),
    (.text "false_condition_value", match settings.falseValue with
      | .int n => .int n
      | .float x => .float x),
    (.text "prompt", .text settings.prompt)]

theorem unknownKeys_eq_nil {entries : List (Data × Data)}
    (h : ∀ entry ∈ entries, isKnown entry.1 = true) : unknownKeys entries = [] := by
  have hnone : strangers entries = [] :=
    List.filter_eq_nil_iff.mpr
      (List.forall_mem_map.mpr fun entry hentry => by simp [h entry hentry])
  rw [unknownKeys, hnone, List.map_nil, List.mergeSort_nil]

-- All settings can be read from a mapping, whatever their number is.
theorem ofEntries_entries (settings : Settings) : ofEntries settings.entries = .ok settings := by
  have hknown : unknownKeys settings.entries = [] :=
    unknownKeys_eq_nil (by simp [entries, isKnown, keys])
  obtain ⟨divisionByZero, falseValue, prompt⟩ := settings
  rw [ofEntries, hknown]
  cases divisionByZero <;> cases falseValue <;> rfl

end Settings

-- That lines tell of a failure: of all diagnostics if there are any, else of the error.
def Failure.ToldBy (lines : List String) : Failure → Prop
  | compile (.diagnosed diagnostics) => List.Forall₂ Diagnostic.Shown diagnostics lines
  | compile error => lines = ["error: " ++ error.message]
  | run error => lines = ["error: " ++ error.message]

-- That a reply tells what became of the value of a line.
structure Reply.Tells (reply : Reply) (result : Except Failure Float) : Prop where
  lines : reply.lines ≠ []
  ok : reply.ok = true ↔ ∃ value, result = .ok value
  value : ∀ value, result = .ok value → reply.lines = [Decimal.answer value]
  failure : ∀ failure, result = .error failure → failure.ToldBy reply.lines

-- That a line needs the value of false conditions, which is beyond the finite doubles.
def Overflows (settings : Settings) (line : String) : Prop :=
  (Reading.ofString line).diagnostics = [] ∧
    (Reading.ofString line).expression.lacksElse = true ∧
    ∃ n, settings.falseValue = .int n ∧ 2 ^ 1024 - 2 ^ 970 ≤ n.natAbs

namespace Ending.Holds

variable {settings : Settings} {line : String}

theorem tells {ending : Ending} (h : ending.Holds settings line) {reply : Reply}
    (hreply : respond settings line = .ok reply) :
    reply.Tells (evaluate (.ofString line) settings) := by
  rw [h.result_eq]
  cases ending with
  | diagnosed diagnostics =>
    obtain ⟨hsome, _, _, lines, ⟨log, hrespond⟩, hshown⟩ := h
    obtain rfl := Except.ok.inj (hreply.symm.trans hrespond)
    refine ⟨fun hnone => ?_, by simp [result], by simp [result], ?_⟩
    · rw [show lines = [] from hnone, List.forall₂_nil_right_iff] at hshown
      exact hsome hshown
    · rintro _ ⟨⟩
      exact hshown
  | valued value =>
    obtain ⟨_, _, log, hrespond⟩ := h
    obtain rfl := Except.ok.inj (hreply.symm.trans hrespond)
    refine ⟨by simp, by simp [result], ?_, by simp [result]⟩
    rintro _ ⟨⟩
    rfl
  | failed error =>
    obtain ⟨_, _, log, hrespond⟩ := h
    obtain rfl := Except.ok.inj (hreply.symm.trans hrespond)
    refine ⟨by simp, by simp [result], by simp [result], ?_⟩
    rintro _ ⟨⟩
    rfl
  | overflowed =>
    obtain ⟨_, _, _, _, hrespond⟩ := h
    cases hreply.symm.trans hrespond

-- A text ends in an overflow just if it needs the number that is too large.
theorem overflows_iff {ending : Ending} (h : ending.Holds settings line) :
    Overflows settings line ↔ ending = .overflowed := by
  constructor
  · rintro ⟨hclean, hlacks, hlarge⟩
    have hover : overflowed.Holds settings line :=
      holds_of_overflow hclean (settings.falseValue.toFloat?_eq_none_iff.mpr hlarge) hlacks
    exact result_injective (by rw [← h.result_eq, hover.result_eq])
  · rintro rfl
    exact ⟨h.1, h.2.1, h.2.2.1⟩

theorem replied_iff {ending : Ending} (h : ending.Holds settings line) :
    (∃ reply, respond settings line = .ok reply) ↔ ending ≠ .overflowed := by
  cases ending with
  | diagnosed diagnostics =>
    obtain ⟨_, _, _, _, ⟨_, hrespond⟩, _⟩ := h
    exact ⟨by simp, fun _ => ⟨_, hrespond⟩⟩
  | valued value =>
    obtain ⟨_, _, _, hrespond⟩ := h
    exact ⟨by simp, fun _ => ⟨_, hrespond⟩⟩
  | failed error =>
    obtain ⟨_, _, _, hrespond⟩ := h
    exact ⟨by simp, fun _ => ⟨_, hrespond⟩⟩
  | overflowed => simp [h.2.2.2.2]

end Ending.Holds

-- Whatever the settings and the line, there is a reply, and it tells the value or why there is
-- none, unless the line needs a number that has no double. Then the line ends the session.
theorem replied_unless_overflow (settings : Settings) (line : String) :
    (∃ entries, Settings.ofEntries entries = .ok settings) ∧
      ((∃ reply, respond settings line = .ok reply) ↔ ¬Overflows settings line) ∧
      (∀ reply, respond settings line = .ok reply →
        reply.Tells (evaluate (.ofString line) settings)) ∧
      (Overflows settings line → respond settings line = .error .valueTooLarge) := by
  obtain ⟨ending, hending⟩ := Ending.exists_holds settings line
  refine ⟨⟨_, settings.ofEntries_entries⟩, ?_, fun reply hreply => hending.tells hreply, ?_⟩
  · rw [hending.replied_iff, hending.overflows_iff]
  · intro hoverflows
    obtain rfl := hending.overflows_iff.mp hoverflows
    exact hending.2.2.2.2

-- Without settings the name `x` is replied to.
theorem name_replied :
    ∃ reply, respond {} "x" = .ok reply ∧ reply.Tells (evaluate (.ofString "x") {}) := by
  obtain ⟨_, hreplied, htells, _⟩ := replied_unless_overflow {} "x"
  have hfits : ¬Overflows {} "x" := by
    rintro ⟨_, _, _, hlarge, _⟩
    cases hlarge
  obtain ⟨reply, hreply⟩ := hreplied.mpr hfits
  exact ⟨reply, hreply, htells reply hreply⟩

-- Settings are accepted with which a line is not replied to.
theorem unreplied_false_condition :
    ∃ settings : Settings,
      Settings.ofEntries [(.text "false_condition_value", .int (10 ^ 309))] = .ok settings ∧
        ¬∃ reply, respond settings "if 0 then 1 end" = .ok reply := by
  refine ⟨{ falseValue := .int (10 ^ 309) }, ?_, ?_⟩
  · rw [Settings.ofEntries, Settings.unknownKeys_eq_nil (List.forall_mem_singleton.mpr rfl)]
    rfl
  · rintro ⟨reply, hreply⟩
    have hlarge : 2 ^ 1024 - 2 ^ 970 ≤ (10 ^ 309 : Int).natAbs := by decide +kernel
    have hover : Ending.overflowed.Holds { falseValue := .int (10 ^ 309) } "if 0 then 1 end" :=
      Ending.holds_of_overflow (by cbv)
        ((Number.toFloat?_eq_none_iff _).mpr ⟨10 ^ 309, rfl, hlarge⟩) (by cbv)
    rw [hover.2.2.2.2] at hreply
    cases hreply

end Calculator
