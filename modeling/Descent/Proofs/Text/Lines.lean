import Descent.Proofs.Text.Breaks

/-!
A text cut at ascending offsets. Cut behind its breaks it falls into lines.
-/

namespace Descent

open LineBreak

/-! Offsets in ascending order. -/

section Ascending

variable {starts : List Nat} {row other start next : Nat}

theorem start_lt_iff {second : Nat} (ascending : starts.Pairwise (· < ·))
    (here : starts[row]? = some start) (there : starts[other]? = some second) :
    start < second ↔ row < other := by
  obtain ⟨inside, rfl⟩ := List.getElem?_eq_some_iff.mp here
  obtain ⟨insideToo, rfl⟩ := List.getElem?_eq_some_iff.mp there
  have ordered := List.pairwise_iff_getElem.mp ascending
  constructor
  · intro lower
    rcases Nat.lt_trichotomy row other with later | rfl | earlier
    · exact later
    · exact absurd lower (Nat.lt_irrefl _)
    · exact absurd lower (Nat.lt_asymm (ordered other row insideToo inside earlier))
  · exact ordered row other inside insideToo

/-- None of the offsets lies between two neighbours. -/
theorem next_le_of_mem {stop : Nat} (ascending : starts.Pairwise (· < ·))
    (here : starts[row]? = some start) (behind : starts[row + 1]? = some next)
    (inside : stop ∈ starts) (later : start < stop) : next ≤ stop := by
  obtain ⟨other, there⟩ := List.getElem?_of_mem inside
  have after := (start_lt_iff ascending here there).mp later
  refine Nat.le_of_not_lt fun between => ?_
  have before := (start_lt_iff ascending there behind).mp between
  omega

theorem le_last_of_mem {stop : Nat} (ascending : starts.Pairwise (· < ·))
    (here : starts[row]? = some start) (last : starts[row + 1]? = none) (inside : stop ∈ starts) :
    stop ≤ start := by
  obtain ⟨other, there⟩ := List.getElem?_of_mem inside
  refine Nat.le_of_not_lt fun later => ?_
  have after := (start_lt_iff ascending here there).mp later
  have bound := (List.getElem?_eq_some_iff.mp there).1
  have beyond := List.getElem?_eq_none_iff.mp last
  omega

/-- Every offset lies in a row: in the last of those that begin at the offset or before it. -/
theorem exists_row {offset : Nat} (ascending : starts.Pairwise (· < ·))
    (first : starts[0]? = some start) (reached : start ≤ offset) :
    ∃ row start, starts[row]? = some start ∧ start ≤ offset ∧
      ∀ next, starts[row + 1]? = some next → offset < next := by
  induction starts generalizing start with
  | nil => cases first
  | cons start rest ih =>
    obtain rfl := Option.some.inj first
    obtain ⟨_, ordered⟩ := List.pairwise_cons.mp ascending
    cases after : rest[0]? with
    | none =>
      refine ⟨0, start, rfl, reached, fun next behind => ?_⟩
      rw [List.getElem?_cons_succ, after] at behind
      cases behind
    | some second =>
      by_cases further : second ≤ offset
      · obtain ⟨row, found, here, below, before⟩ := ih ordered after further
        exact ⟨row + 1, found, here, below, before⟩
      · refine ⟨0, start, rfl, reached, fun next behind => ?_⟩
        rw [List.getElem?_cons_succ, after] at behind
        cases behind
        exact Nat.lt_of_not_le further

/-- To count the rows that begin at an offset or before it is to find the place that the offset has
in their order: the row before that place begins at the offset or earlier, and the next one later. -/
theorem countP_eq_row {offset : Int} (ascending : starts.Pairwise (· < ·))
    (here : starts[row]? = some start) (reached : start ≤ offset)
    (before : ∀ next : Nat, starts[row + 1]? = some next → offset < next) :
    (starts.countP fun (start : Nat) => start ≤ offset) = row + 1 := by
  induction starts generalizing row with
  | nil => cases here
  | cons first rest ih =>
    obtain ⟨lower, ordered⟩ := List.pairwise_cons.mp ascending
    rw [List.countP_cons]
    cases row with
    | zero =>
      obtain rfl := Option.some.inj here
      have beyond : rest.countP (fun (start : Nat) => start ≤ offset) = 0 := by
        rw [List.countP_eq_zero]
        intro later inside
        have size := List.length_pos_of_mem inside
        have behind := before rest[0] (List.getElem?_eq_getElem size)
        obtain ⟨place, there⟩ := List.getElem?_of_mem inside
        have order := start_lt_iff ordered there (List.getElem?_eq_getElem size)
        simp only [decide_eq_true_eq]
        omega
      rw [beyond, if_pos (decide_eq_true reached)]
    | succ row =>
      have below := lower start (List.mem_of_getElem? here)
      have counted : (first : Int) ≤ offset := by omega
      rw [ih ordered here before, if_pos (decide_eq_true counted)]

end Ascending

/-! The pieces between offsets. -/

section Pieces

variable {text : List Char} {bounds : List Nat} {row start stop : Nat}

def between (text : List Char) (start stop : Nat) : List Char :=
  (text.drop start).take (stop - start)

def pieces (text : List Char) : List Nat → List (List Char)
  | start :: stop :: rest => between text start stop :: pieces text (stop :: rest)
  | _ => []

theorem length_between (bound : stop ≤ text.length) : (between text start stop).length = stop - start := by
  simp only [between, List.length_take, List.length_drop]
  omega

theorem getElem?_between {index : Nat} (inside : start + index < stop) :
    (between text start stop)[index]? = text[start + index]? := by
  rw [between, List.getElem?_take_of_lt (by omega), List.getElem?_drop]

theorem between_append {middle : Nat} (first : start ≤ middle) (second : middle ≤ stop) :
    between text start middle ++ between text middle stop = between text start stop := by
  have whole : stop - start = (middle - start) + (stop - middle) := by omega
  rw [between, between, between, whole, List.take_add, List.drop_drop, Nat.add_sub_cancel' first]

theorem length_pieces : (pieces text bounds).length = bounds.length - 1 := by
  induction bounds with
  | nil => rfl
  | cons start rest ih =>
    cases rest with
    | nil => rfl
    | cons stop rest =>
      rw [pieces, List.length_cons, ih]
      rfl

theorem getElem?_pieces (here : bounds[row]? = some start) (behind : bounds[row + 1]? = some stop) :
    (pieces text bounds)[row]? = some (between text start stop) := by
  induction bounds generalizing row with
  | nil => cases here
  | cons first rest ih =>
    cases rest with
    | nil => cases behind
    | cons second rest =>
      cases row with
      | zero =>
        cases here
        cases behind
        rfl
      | succ row => exact ih here behind

theorem flatten_take_pieces (ordered : bounds.Pairwise (· ≤ ·)) (first : bounds[0]? = some start)
    (here : bounds[row]? = some stop) :
    ((pieces text bounds).take row).flatten = between text start stop := by
  induction bounds generalizing row start with
  | nil => cases here
  | cons low rest ih =>
    cases first
    cases row with
    | zero =>
      cases here
      simp [between]
    | succ row =>
      cases rest with
      | nil => cases here
      | cons high rest =>
        obtain ⟨lower, later⟩ := List.pairwise_cons.mp ordered
        have here : (high :: rest)[row]? = some stop := here
        have upper : high ≤ stop := by
          rcases List.mem_cons.mp (List.mem_of_getElem? here) with rfl | inside
          · exact Nat.le_refl _
          · exact (List.pairwise_cons.mp later).1 stop inside
        rw [pieces, List.take_succ_cons, List.flatten_cons, ih later rfl here]
        exact between_append (lower high List.mem_cons_self) upper

end Pieces

theorem LineBreak.BreakAt.between_eq {text mark : List Char} {start : Nat}
    (found : BreakAt text start mark) : between text start (start + mark.length) = mark := by
  apply List.ext_getElem?
  intro index
  rcases Nat.lt_or_ge index mark.length with inside | beyond
  · rw [getElem?_between (Nat.add_lt_add_left inside start), found.shown inside]
  · have size : (between text start (start + mark.length)).length = mark.length := by
      rw [length_between found.within, Nat.add_sub_cancel_left]
    rw [List.getElem?_eq_none (by omega), List.getElem?_eq_none beyond]

def Unbroken (line : List Char) : Prop :=
  ∀ char ∈ line, char ≠ '\r' ∧ char ≠ '\n'

instance (line : List Char) : Decidable (Unbroken line) :=
  List.decidableBAll (fun char => char ≠ '\r' ∧ char ≠ '\n') line

def EndsInBreak (text : List Char) (start : Nat) (line : List Char) : Prop :=
  ∃ body mark, line = body ++ mark ∧ BreakAt text (start + body.length) mark ∧ Unbroken body

theorem unbroken_between {text : List Char} {start stop : Nat}
    (apart : ∀ place mark, BreakAt text place mark → start < place + mark.length → stop ≤ place) :
    Unbroken (between text start stop) := by
  intro char inside
  obtain ⟨index, there⟩ := List.getElem?_of_mem inside
  have bound := (List.getElem?_eq_some_iff.mp there).1
  have below : start + index < stop := by
    simp only [between, List.length_take] at bound
    omega
  rw [getElem?_between below] at there
  have whole : ¬(char = '\r' ∨ char = '\n') := by
    intro breaking
    obtain ⟨place, mark, found, lower, upper⟩ := exists_break there breaking
    have behind := apart place mark found (by omega)
    omega
  exact not_or.mp whole

end Descent
