import Calculator.Proofs.Settings.Mappings
import Calculator.Yaml.Node

namespace Calculator

namespace Settings

theorem mem_insert {key value : Data} {entries : List (Data × Data)} {entry : Data × Data}
    (h : entry ∈ Data.insert key value entries) :
    entry.1 = key ∨ ∃ other ∈ entries, other.1 = entry.1 := by
  induction entries with
  | nil =>
    obtain rfl := List.mem_singleton.mp h
    exact .inl rfl
  | cons first rest ih =>
    rw [Data.insert] at h
    split at h
    · rcases List.mem_cons.mp h with rfl | h
      · exact .inr ⟨first, List.mem_cons_self, rfl⟩
      · exact .inr ⟨entry, List.mem_cons_of_mem _ h, rfl⟩
    · rcases List.mem_cons.mp h with rfl | h
      · exact .inr ⟨first, List.mem_cons_self, rfl⟩
      · obtain heq | ⟨other, hother, heq⟩ := ih h
        · exact .inl heq
        · exact .inr ⟨other, List.mem_cons_of_mem _ hother, heq⟩

theorem Distinct.insert {entries : List (Data × Data)} (h : Distinct entries) (key value : Data) :
    Distinct (Data.insert key value entries) := by
  induction entries with
  | nil => exact List.pairwise_singleton _ _
  | cons first rest ih =>
    obtain ⟨hfirst, hrest⟩ := List.pairwise_cons.mp h
    rw [Data.insert]
    split
    · exact List.pairwise_cons.mpr ⟨hfirst, hrest⟩
    case isFalse hkey =>
      refine List.pairwise_cons.mpr ⟨fun entry hentry => ?_, ih hrest⟩
      rcases mem_insert hentry with heq | ⟨other, hother, heq⟩
      · simpa [heq] using hkey
      · rw [← heq]
        exact hfirst other hother

end Settings

namespace Yaml

open Settings (Distinct)

-- That a mapping, if one is read, has pairwise different keys. A value with other kinds of data is
-- proper whatever the mappings inside of it are.
def Proper (reading : Option (Data × Feed)) : Prop :=
  ∀ entries rest, reading = some (.mapping entries, rest) → Distinct entries

namespace Proper

theorem none : Proper none := fun _ _ h => nomatch h

theorem mapping {entries : List (Data × Data)} (h : Distinct entries) (rest : Feed) :
    Proper (some (.mapping entries, rest)) := by
  rintro _ _ ⟨⟩
  exact h

theorem list (items : List Data) (rest : Feed) : Proper (some (.list items, rest)) :=
  fun _ _ h => nomatch h

theorem bind {α : Type} {found : Option α} {next : α → Option (Data × Feed)}
    (h : ∀ a, found = some a → Proper (next a)) : Proper (found >>= next) := by
  intro entries rest hread
  obtain ⟨a, hfound, hnext⟩ := Option.bind_eq_some_iff.mp hread
  exact h a hfound entries rest hnext

theorem map {α : Type} {found : Option α} {f : α → Data × Feed} (h : ∀ a, Proper (some (f a))) :
    Proper (found.map f) := by
  rw [Option.map_eq_bind]
  exact bind fun a _ => h a

end Proper

variable (fuel : Nat) (feed : Feed)

end Yaml

end Calculator
