import Mathlib.Data.List.Basic
import Calculator.Proofs.Decimal.Range
import Calculator.Settings

namespace Calculator

namespace Data

-- That an integer occurs in a value.
inductive Contains (n : Int) : Data → Prop
  | here : Contains n (.int n)
  | item {items : List Data} {item : Data} (hitem : item ∈ items) (h : Contains n item) :
    Contains n (.list items)
  | key {entries : List (Data × Data)} {key value : Data} (hentry : (key, value) ∈ entries)
    (h : Contains n key) : Contains n (.mapping entries)
  | value {entries : List (Data × Data)} {key value : Data} (hentry : (key, value) ∈ entries)
    (h : Contains n value) : Contains n (.mapping entries)

-- That there is an integer with more than 4300 digits in a value.
def IsLong (data : Data) : Prop :=
  ∃ n, Contains n data ∧ Decimal.maxDigits < Decimal.digitCount n.natAbs

theorem isLong_int (n : Int) :
    (int n).IsLong ↔ Decimal.maxDigits < Decimal.digitCount n.natAbs := by
  constructor
  · rintro ⟨_, ⟨⟩, hlong⟩
    exact hlong
  · exact fun hlong => ⟨n, .here, hlong⟩

theorem isLong_list (items : List Data) : (list items).IsLong ↔ ∃ item ∈ items, item.IsLong := by
  constructor
  · rintro ⟨n, hn, hlong⟩
    cases hn with
    | item hitem h => exact ⟨_, hitem, n, h, hlong⟩
  · rintro ⟨item, hitem, n, hn, hlong⟩
    exact ⟨n, .item hitem hn, hlong⟩

theorem isLong_mapping (entries : List (Data × Data)) :
    (mapping entries).IsLong ↔ ∃ entry ∈ entries, entry.1.IsLong ∨ entry.2.IsLong := by
  constructor
  · rintro ⟨n, hn, hlong⟩
    cases hn with
    | key hentry h => exact ⟨_, hentry, .inl ⟨n, h, hlong⟩⟩
    | value hentry h => exact ⟨_, hentry, .inr ⟨n, h, hlong⟩⟩
  · rintro ⟨⟨key, value⟩, hentry, ⟨n, hn, hlong⟩ | ⟨n, hn, hlong⟩⟩
    · exact ⟨n, .key hentry hn, hlong⟩
    · exact ⟨n, .value hentry hn, hlong⟩

mutual

theorem isWritable_eq_false_iff : (data : Data) → (data.isWritable = false ↔ data.IsLong)
  | int n => by rw [isLong_int, isWritable, decide_eq_false_iff_not, Nat.not_le]
  | list items => by rw [isLong_list, isWritable, itemsWritable_eq_false_iff]
  | mapping entries => by rw [isLong_mapping, isWritable, entriesWritable_eq_false_iff]
  | null | bool _ | float _ | text _ => by
    constructor
    · intro h
      cases h
    · rintro ⟨_, ⟨⟩, _⟩

theorem itemsWritable_eq_false_iff :
    (items : List Data) → (itemsWritable items = false ↔ ∃ item ∈ items, item.IsLong)
  | [] => by simp [itemsWritable]
  | item :: rest => by
    rw [itemsWritable, Bool.and_eq_false_iff, item.isWritable_eq_false_iff,
      itemsWritable_eq_false_iff rest, List.exists_mem_cons_iff]

theorem entriesWritable_eq_false_iff :
    (entries : List (Data × Data)) → (entriesWritable entries = false ↔
      ∃ entry ∈ entries, entry.1.IsLong ∨ entry.2.IsLong)
  | [] => by simp [entriesWritable]
  | (key, value) :: rest => by
    rw [entriesWritable, Bool.and_eq_false_iff, Bool.and_eq_false_iff,
      key.isWritable_eq_false_iff, value.isWritable_eq_false_iff,
      entriesWritable_eq_false_iff rest, List.exists_mem_cons_iff]

end

end Data

def Number.toData : Number → Data
  | int n => .int n
  | float x => .float x

namespace SettingsError

variable {α : Type} {shown : List Data} {error : SettingsError}

end SettingsError

namespace Settings

-- The values that a setting accepts.
inductive Accepts : String → Data → Prop
  | division {word : String} (h : word = "error" ∨ word = "ieee") :
    Accepts "division_by_zero" (.text word)
  | int (n : Int) : Accepts "false_condition_value" (.int n)
  | float (x : Float) : Accepts "false_condition_value" (.float x)
  | prompt (prompt : String) : Accepts "prompt" (.text prompt)

-- What messages say of these values.
def wanted : String → String
  | "division_by_zero" => "one of error, ieee"
  | "false_condition_value" => "a number"
  | _ => "a string"

-- That no two keys of a mapping are the same.
def Distinct (entries : List (Data × Data)) : Prop :=
  entries.Pairwise fun entry other => Data.sameKey entry.1 other.1 = false

-- That each entry of a mapping gives a setting a value that it accepts.
def Valid (entries : List (Data × Data)) : Prop :=
  ∀ entry ∈ entries, ∃ key, entry.1 = .text key ∧ Accepts key entry.2

variable {entries : List (Data × Data)} {key : String}

theorem Distinct.unique (h : Distinct entries) {data other : Data}
    (hdata : (.text key, data) ∈ entries) (hother : (.text key, other) ∈ entries) :
    data = other := by
  induction entries with
  | nil => cases hdata
  | cons entry rest ih =>
    obtain ⟨hentry, hrest⟩ := List.pairwise_cons.mp h
    rcases List.mem_cons.mp hdata with rfl | hdata'
    · rcases List.mem_cons.mp hother with heq | hother'
      · exact (congrArg Prod.snd heq).symm
      · simpa [Data.sameKey] using hentry _ hother'
    · rcases List.mem_cons.mp hother with rfl | hother'
      · simpa [Data.sameKey] using hentry _ hdata'
      · exact ih hrest hdata' hother'

-- That a setting accepts what a mapping gives for it, if that is something.
def Suits (entries : List (Data × Data)) (key : String) : Prop :=
  ∀ data, (.text key, data) ∈ entries → Accepts key data

-- That a setting keeps the value that is given for it, and a default one if there is none.
def Kept (entries : List (Data × Data)) (key : String) (value default : Data) : Prop :=
  (.text key, value) ∈ entries ∨ (∀ other, (.text key, other) ∉ entries) ∧ value = default

-- Why a mapping is refused: the data that has to be shown and the message that shows it. All
-- unknown keys are named in alphabetical order, else the first setting whose value is not
-- accepted.
inductive Offence (entries : List (Data × Data)) : List Data → String → Prop
  | unknown {names : List String} (h : strangers entries ≠ [])
    (hnames : names.Perm ((strangers entries).map Data.plain)) (hsorted : names.Pairwise (· ≤ ·)) :
    Offence entries (strangers entries)
      ("Unknown configuration keys: " ++ ", ".intercalate names)
  | badValue {before after : List String} {key : String} {data : Data}
    (hknown : strangers entries = []) (hkeys : keys = before ++ key :: after)
    (hfirst : ∀ other ∈ before, Suits entries other)
    (hentry : (.text key, data) ∈ entries) (hbad : ¬Accepts key data) :
    Offence entries [data] (key ++ " must be " ++ wanted key ++ ", got " ++ data.render)

theorem Offence.unique (hdistinct : Distinct entries) {shown shown' : List Data}
    {message message' : String} (h : Offence entries shown message)
    (h' : Offence entries shown' message') : shown = shown' ∧ message = message' := by
  cases h with
  | unknown hstrangers hnames hsorted =>
    cases h' with
    | unknown _ hnames' hsorted' =>
      have heq := (hnames.trans hnames'.symm).eq_of_pairwise
        (fun _ _ _ _ => String.le_antisymm) hsorted hsorted'
      exact ⟨rfl, by rw [heq]⟩
    | badValue hknown => exact absurd hknown hstrangers
  | badValue hknown hkeys hfirst hentry hbad =>
    cases h' with
    | unknown hstrangers => exact absurd hknown hstrangers
    | badValue _ hkeys' hfirst' hentry' hbad' =>
      -- if one of the keys stood in front of the other its value would be accepted
      obtain ⟨between, rfl, hrest⟩ | ⟨between, rfl, hrest⟩ :=
        List.append_eq_append_iff.mp (hkeys.symm.trans hkeys')
      · cases between with
        | nil =>
          cases hrest
          obtain rfl := hdistinct.unique hentry hentry'
          exact ⟨rfl, rfl⟩
        | cons =>
          cases hrest
          exact absurd (hfirst' _ (by simp) _ hentry) hbad
      · cases between with
        | nil =>
          cases hrest
          obtain rfl := hdistinct.unique hentry hentry'
          exact ⟨rfl, rfl⟩
        | cons =>
          cases hrest
          exact absurd (hfirst _ (by simp) _ hentry') hbad'

-- That settings hold what a mapping gives for them, and the default values else.
structure Keeps (settings : Settings) (entries : List (Data × Data)) : Prop where
  division : Kept entries "division_by_zero" (.text settings.divisionByZero.name) (.text "error")
  falseValue :
    Kept entries "false_condition_value" settings.falseValue.toData (.float Decimal.zero)
  prompt : Kept entries "prompt" (.text settings.prompt) (.text "Expression> ")

-- What a mapping is read as.
inductive Judged (entries : List (Data × Data)) : Except SettingsError Settings → Prop
  | taken {settings : Settings} (hvalid : Valid entries) (hkeeps : settings.Keeps entries) :
    Judged entries (.ok settings)
  | refused {shown : List Data} {error : SettingsError}
    (hoffence : Offence entries shown error.message) (hfatal : error.isFatal = false) :
    Judged entries (SettingsError.refuse shown error)

namespace Judged

variable {result : Except SettingsError Settings}

theorem keeps (h : Judged entries result) {settings : Settings} (hresult : result = .ok settings) :
    settings.Keeps entries := by
  cases h with
  | taken _ hkeeps =>
    cases hresult
    exact hkeeps
  | refused => cases hresult

end Judged

end Settings

end Calculator
