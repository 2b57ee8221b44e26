import Mathlib.Data.List.Forall2
import Calculator.CommandLine
import Calculator.Proofs.Compiling.Replies

namespace Calculator

-- That there is something else than white space in a line.
def Text.HasInk (line : String) : Prop := ∃ c ∈ line.toList, isBlank c = false

theorem Text.isBlankLine_eq_false_iff (line : String) :
    isBlankLine line = false ↔ HasInk line := by
  simp [isBlankLine, HasInk]

-- That each line with something in it is replied to.
def Replied (settings : Settings) (lines : List String) : Prop :=
  ∀ line ∈ lines, Text.HasInk line → ∃ reply, respond settings line = .ok reply

theorem replied_of_float {settings : Settings} {x : Float} (h : settings.falseValue = .float x)
    (lines : List String) : Replied settings lines := by
  intro line _ _
  obtain ⟨ending, hending⟩ := Ending.exists_holds settings line
  refine hending.replied_iff.mpr ?_
  rintro rfl
  obtain ⟨_, _, ⟨n, hint, _⟩, _⟩ := hending
  rw [h] at hint
  cases hint

-- What is written for one line: the prompt, and the reply if there is something in the line.
inductive Exchange (settings : Settings) (line : String) : String → Prop
  | blank (h : ¬Text.HasInk line) : Exchange settings line settings.prompt
  | replied {reply : Reply} (h : Text.HasInk line) (hreply : respond settings line = .ok reply) :
    Exchange settings line
      (settings.prompt ++ String.join (reply.lines.map (· ++ "\n")) ++ "\n")

variable {settings : Settings}

-- The step of a session: a line that is replied to is exchanged and does not end the session.
theorem converse_of_replied {line : String}
    (h : Text.HasInk line → ∃ reply, respond settings line = .ok reply) :
    (converse settings line).error = none ∧
      Exchange settings line (converse settings line).output := by
  unfold converse
  split
  · rename_i hblank
    refine ⟨rfl, .blank fun hink => ?_⟩
    rw [(Text.isBlankLine_eq_false_iff line).mpr hink] at hblank
    cases hblank
  · rename_i hblank
    have hink := (Text.isBlankLine_eq_false_iff line).mp (Bool.eq_false_iff.mpr hblank)
    obtain ⟨reply, hreply⟩ := h hink
    rw [hreply]
    exact ⟨rfl, .replied hink hreply⟩

-- What a session writes before it asks for the line behind the last one.
def exchanged (settings : Settings) (lines : List String) : String :=
  String.join (lines.map fun line => (converse settings line).output)

theorem exchanges {lines : List String} (h : Replied settings lines) :
    List.Forall₂ (Exchange settings) lines
      (lines.map fun line => (converse settings line).output) := by
  rw [List.forall₂_map_right_iff, List.forall₂_same]
  exact fun line hline => (converse_of_replied (h line hline)).2

-- The run of a session: it goes on to the end of the input.
theorem session_of_replied {lines : List String} (h : Replied settings lines) :
    (session settings lines).error = none ∧
      (session settings lines).output = exchanged settings lines ++ (settings.prompt ++ "\n") := by
  induction lines with
  | nil => exact ⟨rfl, (String.empty_append).symm⟩
  | cons line rest ih =>
    obtain ⟨hline, hrest⟩ := List.forall_mem_cons.mp h
    obtain ⟨hnone, _⟩ := converse_of_replied hline
    obtain ⟨herror, houtput⟩ := ih hrest
    simp only [session, Transcript.followedBy, hnone, herror, houtput, exchanged, List.map_cons,
      String.join_cons, String.append_assoc, and_self]

namespace CommandLine

theorem Job.work_of_replied {job : Job} (hinteractive : job.options.expression = none)
    {lines : List String} (h : Replied job.settings lines) :
    (job.work lines).exit = .ok 0 ∧
      (job.work lines).output =
        exchanged job.settings lines ++ (job.settings.prompt ++ "\n") := by
  obtain ⟨herror, houtput⟩ := session_of_replied h
  unfold work
  rw [hinteractive]
  simp only [Outcome.ofTranscript, herror, houtput, and_self]

end CommandLine

-- Without an expression a call answers the lines of its input one by one, and asks for a further
-- one at the end, if every line with something in it is replied to. What it writes for some lines
-- and others behind them is what it writes for each of the two by itself, but for the last prompt
-- of the first.
theorem sessions_go_line_by_line {job : CommandLine.Job}
    (hinteractive : job.options.expression = none) {front back : List String}
    (hreplied : Replied job.settings (front ++ back)) :
    (∀ reader arguments files, CommandLine.Job.ofArguments reader arguments files = .ok job →
      ∀ input, CommandLine.run reader arguments files input = job.work input) ∧
    (job.work (front ++ back)).exit = .ok 0 ∧
    (∃ texts, List.Forall₂ (Exchange job.settings) (front ++ back) texts ∧
      (job.work (front ++ back)).output = String.join texts ++ (job.settings.prompt ++ "\n")) ∧
    ∃ text, (job.work front).output = text ++ (job.settings.prompt ++ "\n") ∧
      (job.work (front ++ back)).output = text ++ (job.work back).output := by
  have hfront : Replied job.settings front := fun line hline =>
    hreplied line (List.mem_append_left _ hline)
  have hback : Replied job.settings back := fun line hline =>
    hreplied line (List.mem_append_right _ hline)
  obtain ⟨hexit, houtput⟩ := CommandLine.Job.work_of_replied hinteractive hreplied
  refine ⟨fun reader arguments files hjob input => by rw [CommandLine.run, hjob], hexit,
    ⟨_, exchanges hreplied, houtput⟩, exchanged job.settings front,
    (CommandLine.Job.work_of_replied hinteractive hfront).2, ?_⟩
  rw [houtput, (CommandLine.Job.work_of_replied hinteractive hback).2]
  simp only [exchanged, List.map_append, String.join_append, String.append_assoc]

-- After a name without a value and a blank line a number has the value it has without them.
theorem session_of_name_and_number :
    let job : CommandLine.Job := { options := {} }
    ∃ text, (job.work ["x", " "]).output = text ++ "Expression> \n" ∧
      (job.work ["x", " ", "1"]).output = text ++ (job.work ["1"]).output :=
  (@sessions_go_line_by_line { options := {} } rfl _ _
    (replied_of_float rfl (["x", " "] ++ ["1"]))).2.2.2

end Calculator
