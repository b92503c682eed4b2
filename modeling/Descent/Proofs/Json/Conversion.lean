import Descent.Proofs.Json.Nesting
import Mathlib

/-!
A number is read as if all its digits were converted. The run of digits is taken whole, however long
it is, and if what it denotes is beyond 32 bits nothing is matched, no shorter run either.
-/

namespace Descent.Json.Grammar

variable {view rest other : View} {value size : Int}

def LeadingNumber (view : View) (value : Int) (rest : View) : Prop :=
  ∃ word, view.Splits word rest ∧ NumberWord word value ∧ startsWithDigit rest.chars = false

theorem digits_unique {word more : List Char} (split : view.Splits word rest) (run : DigitRun word)
    (ends : startsWithDigit rest.chars = false) (splitToo : view.Splits more other)
    (runToo : DigitRun more) (endsToo : startsWithDigit other.chars = false) :
    word = more ∧ rest = other := by
  obtain ⟨first, last⟩ := View.span_of_splits split run.2 ends
  obtain ⟨firstToo, lastToo⟩ := View.span_of_splits splitToo runToo.2 endsToo
  exact ⟨first.symm.trans firstToo, last.symm.trans lastToo⟩

theorem LeadingNumber.unique (leads : LeadingNumber view value rest)
    (leadsToo : LeadingNumber view size other) : value = size ∧ rest = other := by
  obtain ⟨word, split, written, ends⟩ := leads
  obtain ⟨more, splitToo, writtenToo, endsToo⟩ := leadsToo
  cases written with
  | plain run =>
    cases writtenToo with
    | plain runToo =>
      obtain ⟨rfl, same⟩ := digits_unique split run ends splitToo runToo endsToo
      exact ⟨rfl, same⟩
    | negative => exact absurd splitToo.head?_chars (head?_ne_minus split run)
  | negative run =>
    obtain ⟨middle, minus, digits⟩ := split.cons
    cases writtenToo with
    | plain runToo => exact absurd split.head?_chars (head?_ne_minus splitToo runToo)
    | negative runToo =>
      obtain ⟨between, minusToo, digitsToo⟩ := splitToo.cons
      obtain rfl := minus.unique minusToo
      obtain ⟨rfl, same⟩ := digits_unique digits run ends digitsToo runToo endsToo
      exact ⟨rfl, same⟩

theorem number_settled (view : View) :
    (∃ found rest, number view = .matched found rest) ∨ number view = .noMatch :=
  (number_stays View.lasting_true view trivial).settled

theorem number_eq_matched_iff {found : Json} :
    number view = .matched found rest ↔
      ∃ value, LeadingNumber view value rest ∧ least ≤ value ∧ value ≤ greatest ∧
        found = .num value := by
  constructor
  · intro parsed
    obtain ⟨word, value, split, written, ends, lower, upper, same⟩ := number_eq_matched parsed
    exact ⟨value, ⟨word, split, written, ends⟩, lower, upper, same⟩
  · rintro ⟨value, ⟨word, split, written, ends⟩, lower, upper, rfl⟩
    exact number_of_splits split written lower upper ends

theorem number_eq_noMatch_iff :
    number view = .noMatch ↔
      ∀ value rest, LeadingNumber view value rest → ¬(least ≤ value ∧ value ≤ greatest) := by
  constructor
  · rintro refused value rest leads ⟨lower, upper⟩
    rw [number_eq_matched_iff.mpr ⟨value, leads, lower, upper, rfl⟩] at refused
    cases refused
  · intro none
    rcases number_settled view with ⟨found, rest, parsed⟩ | refused
    · obtain ⟨value, leads, lower, upper, _⟩ := number_eq_matched_iff.mp parsed
      exact absurd ⟨lower, upper⟩ (none value rest leads)
    · exact refused

/-- The whole run of digits at the front decides: if the number it denotes has 32 bits, the number is
read and what follows the run remains, and in every other case nothing is matched. -/
theorem number_converts_whole_run (view : View) :
    (∀ found rest, number view = .matched found rest ↔
      ∃ value, LeadingNumber view value rest ∧ -2 ^ 31 ≤ value ∧ value ≤ 2 ^ 31 - 1 ∧
        found = .num value) ∧
    (number view = .noMatch ↔ ¬∃ value rest, LeadingNumber view value rest ∧
      -2 ^ 31 ≤ value ∧ value ≤ 2 ^ 31 - 1) ∧
    ∀ value rest, LeadingNumber view value rest → value < -2 ^ 31 ∨ 2 ^ 31 - 1 < value →
      number view = .noMatch := by
  have lower : least = -2 ^ 31 := by decide
  have upper : greatest = 2 ^ 31 - 1 := by decide
  rw [← lower, ← upper]
  refine ⟨fun found rest => number_eq_matched_iff, ?_, ?_⟩
  · simp only [number_eq_noMatch_iff, not_exists, not_and]
  · intro value rest leads beyond
    rw [number_eq_noMatch_iff]
    rintro size other leadsToo ⟨above, below⟩
    obtain ⟨rfl, _⟩ := leads.unique leadsToo
    omega

/-- Both limits, behind more zeros than a number may have digits. -/
theorem number_converts_limits :
    number (View.of "00000000002147483648,") = .noMatch ∧
    ∃ rest, number (View.of "-00000000002147483648,") = .matched (.num (-2147483648)) rest ∧
      rest.text = "," := by
  have run : DigitRun "00000000002147483648".toList := ⟨by decide, List.all_eq_true.mp (by cbv)⟩
  have size : Nat.ofDigitChars 10 "00000000002147483648".toList 0 = 2147483648 := by cbv
  have positive := NumberWord.plain run
  have negative := NumberWord.negative run
  rw [size] at positive negative
  obtain ⟨split, left⟩ := View.splits_drop "00000000002147483648".toList
    (View.chars_ofChars ("00000000002147483648".toList ++ [',']))
  obtain ⟨splitToo, leftToo⟩ := View.splits_drop ('-' :: "00000000002147483648".toList)
    (View.chars_ofChars ('-' :: "00000000002147483648".toList ++ [',']))
  obtain ⟨_, _, beyond⟩ := number_converts_whole_run (View.of "00000000002147483648,")
  obtain ⟨within, _⟩ := number_converts_whole_run (View.of "-00000000002147483648,")
  have large : LeadingNumber _ 2147483648 _ := ⟨_, split, positive, by rw [left]; rfl⟩
  have small : LeadingNumber _ (-2147483648) _ := ⟨_, splitToo, negative, by rw [leftToo]; rfl⟩
  refine ⟨beyond _ _ large (by decide), _, (within _ _).mpr ⟨_, small, by decide, by decide, rfl⟩, ?_⟩
  rw [View.text, leftToo]

end Descent.Json.Grammar
