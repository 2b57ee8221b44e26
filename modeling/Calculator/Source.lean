namespace Calculator

-- Where characters come from: a fixed text, or a stream that may still grow. What a stream gave is
-- kept until it is read, the answer that there is no more included.
inductive Source where
  | text (rest : List Char)
  -- `seen` is what the stream gave last, if that was not read yet
  | stream (seen : Option (Option Char)) (pending : List Char)
  deriving DecidableEq, Inhabited

namespace Source

def ofString (text : String) : Source := .text text.toList

def ofStream (text : String) : Source := .stream none text.toList

-- The next character, and the source after it was looked at.
def peek : Source → Option Char × Source
  | text rest => (rest.head?, text rest)
  | stream (some seen) pending => (seen, stream (some seen) pending)
  | stream none pending => (pending.head?, stream (some pending.head?) pending.tail)

-- The next character, and the source after it was taken.
def read : Source → Option Char × Source
  | text rest => (rest.head?, text rest.tail)
  | stream (some seen) pending => (seen, stream none pending)
  | stream none pending => (pending.head?, stream none pending.tail)

-- Adds text at the end of a stream; a fixed text does not grow.
def append (added : List Char) : Source → Source
  | text rest => text rest
  | stream seen pending => stream seen (pending ++ added)

-- The characters that will be read if nothing is added.
def visible : Source → List Char
  | text rest => rest
  | stream none pending => pending
  | stream (some none) _ => []
  | stream (some (some c)) pending => c :: pending

theorem peek_fst (source : Source) : source.peek.1 = source.visible.head? := by
  rcases source with _ | ⟨_ | _ | _, _⟩ <;> rfl

theorem visible_peek (source : Source) : source.peek.2.visible = source.visible := by
  rcases source with _ | ⟨_ | _ | _, _ | _⟩ <;> rfl

theorem read_fst (source : Source) : source.read.1 = source.visible.head? := by
  rcases source with _ | ⟨_ | _ | _, _⟩ <;> rfl

-- Reading takes the first visible character and leaves the others. Once the end was seen,
-- what the stream gave meanwhile becomes visible instead.
theorem visible_read_of_peek {source : Source} {c : Char} (h : source.peek.1 = some c) :
    source.visible = c :: source.read.2.visible := by
  rcases source with _ | ⟨_ | _ | _, _⟩ <;> simp_all [peek, read, visible, List.head?_eq_some_iff]
  all_goals grind

-- Takes the longest run of characters of a class. The character that ends the run was looked at.
def takeWhile (p : Char → Bool) (source : Source) : List Char × Source :=
  match _h : source.peek.1 with
  | none => ([], source.peek.2)
  | some c =>
    if p c then
      let run := source.read.2.takeWhile p
      (c :: run.1, run.2)
    else ([], source.peek.2)
termination_by source.visible.length
decreasing_by rw [visible_read_of_peek _h]; exact Nat.lt_succ_self _

theorem takeWhile_fst (p : Char → Bool) (source : Source) :
    (source.takeWhile p).1 = source.visible.takeWhile p := by
  fun_induction takeWhile p source with
  | case1 source h =>
    rw [peek_fst, List.head?_eq_none_iff] at h
    simp [h]
  | case2 source c h hp run ih => simp [visible_read_of_peek h, hp, run, ih]
  | case3 source c h hp => simp [visible_read_of_peek h, hp]

theorem length_takeWhile_le (p : Char → Bool) (source : Source) :
    (source.takeWhile p).2.visible.length ≤ source.visible.length := by
  fun_induction takeWhile p source with
  | case1 source h => exact Nat.le_of_eq (congrArg List.length source.visible_peek)
  | case2 source c h hp run ih =>
    rw [visible_read_of_peek h]
    exact Nat.le_succ_of_le ih
  | case3 source c h hp => exact Nat.le_of_eq (congrArg List.length source.visible_peek)

theorem visible_takeWhile (p : Char → Bool) (source : Source) :
    (source.takeWhile p).2.visible = source.visible.dropWhile p := by
  fun_induction takeWhile p source with
  | case1 source h =>
    rw [visible_peek]
    rw [peek_fst, List.head?_eq_none_iff] at h
    simp [h]
  | case2 source c h hp run ih => simp [visible_read_of_peek h, hp, run, ih]
  | case3 source c h hp => rw [visible_peek]; simp [visible_read_of_peek h, hp]

end Source

end Calculator
