import Descent.Text.LineBreak
import Mathlib.Data.Set.Card

/-!
The breaks of a text by where they stand. The offsets that are found behind them ascend, and there is
one for each break.
-/

namespace Descent.LineBreak

variable {text : List Char} {start place : Nat} {mark : List Char}

inductive BreakAt (text : List Char) (start : Nat) : List Char → Prop where
  | pair : text[start]? = some '\r' → text[start + 1]? = some '\n' → BreakAt text start ['\r', '\n']
  | carriageReturn : text[start]? = some '\r' → text[start + 1]? ≠ some '\n' →
      BreakAt text start ['\r']
  | lineFeed : text[start]? = some '\n' → (∀ before, before + 1 = start → text[before]? ≠ some '\r') →
      BreakAt text start ['\n']

def breaks (text : List Char) : Set (Nat × List Char) :=
  {found | BreakAt text found.1 found.2}

def EndsBreak (text : List Char) (place : Nat) : Prop :=
  text[place]? = some '\n' ∨ text[place]? = some '\r' ∧ text[place + 1]? ≠ some '\n'

theorem BreakAt.length_pos (found : BreakAt text start mark) : 0 < mark.length := by
  cases found <;> exact Nat.succ_pos _

theorem BreakAt.marked (found : BreakAt text start mark) : ∀ char ∈ mark, char = '\r' ∨ char = '\n' := by
  cases found <;> simp

/-- The text shows a break where it stands. -/
theorem BreakAt.shown (found : BreakAt text start mark) {index : Nat} (inside : index < mark.length) :
    text[start + index]? = mark[index]? := by
  cases found with
  | pair first second =>
    match index with
    | 0 => exact first
    | 1 => exact second
    | index + 2 => simp at inside
  | carriageReturn here | lineFeed here =>
    obtain rfl : index = 0 := by simpa using inside
    exact here

theorem BreakAt.within (found : BreakAt text start mark) : start + mark.length ≤ text.length := by
  have size := found.length_pos
  have inside : mark.length - 1 < mark.length := by omega
  have last := found.shown inside
  rw [List.getElem?_eq_getElem inside] at last
  have bound := (List.getElem?_eq_some_iff.mp last).1
  omega

theorem endsBreak_iff : EndsBreak text place ↔
    ∃ start mark, BreakAt text start mark ∧ start + mark.length = place + 1 := by
  constructor
  · rintro (feed | ⟨alone, apart⟩)
    · by_cases joined : ∃ before, before + 1 = place ∧ text[before]? = some '\r'
      · obtain ⟨before, rfl, carriage⟩ := joined
        exact ⟨before, _, .pair carriage feed, rfl⟩
      · refine ⟨place, _, .lineFeed feed fun before next carriage => ?_, rfl⟩
        exact joined ⟨before, next, carriage⟩
    · exact ⟨place, _, .carriageReturn alone apart, rfl⟩
  · rintro ⟨start, mark, found, stop⟩
    cases found with
    | pair _ feed =>
      obtain rfl : start + 1 = place := by simpa using stop
      exact .inl feed
    | carriageReturn alone apart =>
      obtain rfl : start = place := by simpa using stop
      exact .inr ⟨alone, apart⟩
    | lineFeed feed _ =>
      obtain rfl : start = place := by simpa using stop
      exact .inl feed

/-- Breaks do not overlap. -/
theorem BreakAt.apart {other : Nat} {second : List Char} (found : BreakAt text start mark)
    (foundToo : BreakAt text other second) (order : start ≤ other) :
    start = other ∧ mark = second ∨ start + mark.length ≤ other := by
  rcases Nat.lt_or_ge other (start + mark.length) with inside | behind
  · rcases Nat.eq_or_lt_of_le order with rfl | later
    · cases found <;> cases foundToo <;> simp_all
    · cases found with
      | pair carriage feed =>
        obtain rfl : other = start + 1 := by
          simp only [List.length_cons, List.length_nil] at inside
          omega
        cases foundToo with
        | pair here | carriageReturn here => simp [feed] at here
        | lineFeed _ alone => exact absurd carriage (alone start rfl)
      | carriageReturn | lineFeed =>
        simp only [List.length_cons, List.length_nil] at inside
        omega
  · exact .inr behind

theorem BreakAt.unique {other : Nat} {second : List Char} (found : BreakAt text start mark)
    (foundToo : BreakAt text other second) (stop : start + mark.length = other + second.length) :
    start = other ∧ mark = second := by
  have size := found.length_pos
  have otherSize := foundToo.length_pos
  rcases Nat.le_total start other with order | order
  · rcases found.apart foundToo order with same | behind
    · exact same
    · omega
  · rcases foundToo.apart found order with ⟨rfl, rfl⟩ | behind
    · exact ⟨rfl, rfl⟩
    · omega

/-- A character that breaks a line is part of a break. -/
theorem exists_break {char : Char} (here : text[place]? = some char) (breaking : char = '\r' ∨ char = '\n') :
    ∃ start mark, BreakAt text start mark ∧ start ≤ place ∧ place < start + mark.length := by
  by_cases ended : EndsBreak text place
  · obtain ⟨start, mark, found, stop⟩ := endsBreak_iff.mp ended
    have size := found.length_pos
    exact ⟨start, mark, found, by omega, by omega⟩
  · simp only [EndsBreak, here, Option.some.injEq, not_or, not_and, not_not] at ended
    obtain rfl := breaking.resolve_right ended.1
    exact ⟨place, _, .pair here (ended.2 rfl), Nat.le_refl _, Nat.lt_add_of_pos_right (Nat.succ_pos _)⟩

theorem endsAt_eq_true_iff (char : Char) (rest : List Char) :
    endsAt char rest = true ↔ EndsBreak (char :: rest) 0 := by
  simp [endsAt, EndsBreak, List.head?_eq_getElem?]

theorem endsBreak_cons {char : Char} {rest : List Char} :
    EndsBreak (char :: rest) (place + 1) ↔ EndsBreak rest place := by
  simp [EndsBreak]

theorem mem_scanEnds {stop offset : Nat} {found : List Nat} :
    stop ∈ scanEnds text offset found ↔
      stop ∈ found ∨ ∃ place, EndsBreak text place ∧ stop = offset + place + 1 := by
  induction text generalizing offset found with
  | nil => simp [scanEnds, EndsBreak]
  | cons char rest ih =>
    rw [scanEnds, ih]
    have shifted : (∃ place, EndsBreak (char :: rest) place ∧ stop = offset + place + 1) ↔
        endsAt char rest = true ∧ stop = offset + 1 ∨
          ∃ place, EndsBreak rest place ∧ stop = offset + 1 + place + 1 := by
      constructor
      · rintro ⟨_ | place, ends, rfl⟩
        · exact .inl ⟨(endsAt_eq_true_iff char rest).mpr ends, rfl⟩
        · exact .inr ⟨place, endsBreak_cons.mp ends, by omega⟩
      · rintro (⟨ends, rfl⟩ | ⟨place, ends, rfl⟩)
        · exact ⟨0, (endsAt_eq_true_iff char rest).mp ends, rfl⟩
        · exact ⟨place + 1, endsBreak_cons.mpr ends, by omega⟩
    rw [shifted]
    by_cases ends : endsAt char rest = true
    · simp [ends, or_assoc, or_left_comm]
    · simp [ends]

theorem scanEnds_descending {offset : Nat} {found : List Nat} (descending : found.Pairwise (· > ·))
    (below : ∀ stop ∈ found, stop ≤ offset) : (scanEnds text offset found).Pairwise (· > ·) := by
  induction text generalizing offset found with
  | nil => exact descending
  | cons char rest ih =>
    rw [scanEnds]
    by_cases ends : endsAt char rest = true
    · rw [if_pos ends]
      apply ih
      · exact List.pairwise_cons.mpr ⟨fun stop inside => Nat.lt_succ_of_le (below stop inside), descending⟩
      · rw [List.forall_mem_cons]
        exact ⟨Nat.le_refl _, fun stop inside => Nat.le_succ_of_le (below stop inside)⟩
    · rw [if_neg ends]
      exact ih descending fun stop inside => Nat.le_succ_of_le (below stop inside)

theorem mem_ends_iff {stop : Nat} : stop ∈ ends text ↔
    ∃ start mark, BreakAt text start mark ∧ start + mark.length = stop := by
  rw [ends, List.mem_reverse, mem_scanEnds]
  constructor
  · rintro (none | ⟨place, ended, rfl⟩)
    · exact absurd none List.not_mem_nil
    · rw [Nat.zero_add]
      exact endsBreak_iff.mp ended
  · rintro ⟨start, mark, found, rfl⟩
    have size := found.length_pos
    have place : start + mark.length = (start + mark.length - 1) + 1 := by omega
    exact .inr ⟨_, endsBreak_iff.mpr ⟨start, mark, found, place⟩, by omega⟩

theorem ends_ascending (text : List Char) : (ends text).Pairwise (· < ·) := by
  rw [ends, List.pairwise_reverse]
  exact scanEnds_descending List.Pairwise.nil fun _ inside => absurd inside List.not_mem_nil

theorem ncard_breaks (text : List Char) : (breaks text).ncard = (ends text).length := by
  have image : (fun found : Nat × List Char => found.1 + found.2.length) '' breaks text =
      (ends text).toFinset := by
    ext stop
    simp [breaks, mem_ends_iff]
  have injective : Set.InjOn (fun found : Nat × List Char => found.1 + found.2.length) (breaks text) := by
    rintro ⟨start, mark⟩ found ⟨other, second⟩ foundToo same
    obtain ⟨rfl, rfl⟩ := BreakAt.unique found foundToo same
    rfl
  rw [← injective.ncard_image, image, Set.ncard_coe_finset]
  exact List.toFinset_card_of_nodup ((ends_ascending text).imp Nat.ne_of_lt)

end Descent.LineBreak
