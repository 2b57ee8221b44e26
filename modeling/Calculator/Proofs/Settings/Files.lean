import Calculator.CommandLine
import Calculator.Proofs.Settings.Documents

namespace Calculator

namespace FileState

-- That a file holds a mapping. One without a value holds an empty mapping.
inductive Holds (reader : DataReader) : FileState → List (Data × Data) → Prop
  | blank {content : String} (h : reader (unifyLines content.toList) = .ok .null) :
    Holds reader (.text content) []
  | mapping {content : String} {entries : List (Data × Data)}
    (h : reader (unifyLines content.toList) = .ok (.mapping entries)) :
    Holds reader (.text content) entries

variable {reader : DataReader} {state : FileState} {entries : List (Data × Data)}

theorem readEntries_eq_ok_iff (path : String) :
    Settings.readEntries reader path state = .ok entries ↔ state.Holds reader entries := by
  constructor
  · intro h
    cases state with
    | absent => cases h
    | unreadable => cases h
    | text content =>
      rw [Settings.readEntries] at h
      split at h
      case h_3 hnull =>
        cases h
        exact .blank hnull
      case h_4 hmapping =>
        cases h
        exact .mapping hmapping
      all_goals cases h
  · rintro (h | h)
    · rw [Settings.readEntries, h]
    · rw [Settings.readEntries, h]

theorem Holds.unique {entries' : List (Data × Data)} (h : state.Holds reader entries)
    (h' : state.Holds reader entries') : entries = entries' :=
  Except.ok.inj
    (((readEntries_eq_ok_iff "").mpr h).symm.trans ((readEntries_eq_ok_iff "").mpr h'))

end FileState

namespace CommandLine

variable {reader : DataReader} {arguments : List String} {path : String}

end CommandLine

end Calculator
