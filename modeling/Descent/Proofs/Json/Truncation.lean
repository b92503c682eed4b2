import Descent.Proofs.Json.Nesting
import Mathlib

/-!
No word that derives a value begins another one, numbers apart. So a value that was cut short is
not read at all, and what follows a value has no part in how it is read.
-/

namespace Descent.Json

open Grammar

variable {word part : List Char} {value other : Json}

theorem Derives.opens_unsigned (derived : Derives word value)
    (noNumber : ∀ number, value ≠ .num number) :
    ∃ char more, word = char :: more ∧ char ≠ '-' ∧ char.isDigit = false := by
  cases derived with
  | null => exact ⟨'n', _, rfl, by decide⟩
  | yes => exact ⟨'t', _, rfl, by decide⟩
  | no => exact ⟨'f', _, rfl, by decide⟩
  | number => exact absurd rfl (noNumber _)
  | string quoted =>
    cases quoted with
    | quoted => exact ⟨'"', _, rfl, by decide⟩
  | array enclosed => cases enclosed <;> exact ⟨'[', _, rfl, by decide⟩
  | object enclosed => cases enclosed <;> exact ⟨'\x7b', _, rfl, by decide⟩

theorem Derives.no_number_in_front (derived : Derives word value)
    (noNumber : ∀ number, value ≠ .num number) (front : part <+: word) (number : Int) :
    ¬NumberWord part number := by
  intro written
  obtain ⟨char, more, rfl, unsigned, noDigit⟩ := derived.opens_unsigned noNumber
  obtain ⟨first, rest, rfl, signOrDigit⟩ := written.opens
  rw [(List.cons_prefix_cons.mp front).1] at signOrDigit
  rcases signOrDigit with minus | digit
  · exact unsigned minus
  · rw [noDigit] at digit
    exact nomatch digit

theorem Derives.prefix_free (derived : Derives word value)
    (noNumber : ∀ number, value ≠ .num number) (written : Derives part other)
    (front : part <+: word) : part = word := by
  have noSign := derived.no_number_in_front noNumber front
  obtain ⟨more, rfl⟩ := front
  have shown : (View.ofChars (part ++ more)).chars = part ++ more := View.chars_ofChars _
  obtain ⟨rest, early, left⟩ : ∃ rest, (View.ofChars (part ++ more)).Splits part rest ∧
      rest.chars = more := ⟨_, View.splits_drop part shown⟩
  obtain ⟨last, late, nothing⟩ : ∃ last, (View.ofChars (part ++ more)).Splits (part ++ more) last ∧
      last.chars = [] := ⟨_, View.splits_drop _ (shown.trans (List.append_nil _).symm)⟩
  -- Both words are read from one view, and reading it has one result.
  have readEarly := value_of_splits written early fun number same => by
    subst same
    cases written with
    | number digits => exact absurd digits (noSign number)
  have readLate := value_of_splits derived late fun number same => absurd same (noNumber number)
  rw [readEarly] at readLate
  cases readLate
  rw [left] at nothing
  rw [nothing, List.append_nil]

/-- A value that is no number is not read from any shorter beginning of its text. Every value is
read from its own text with anything behind it, digits behind a number excepted. -/
theorem value_read_whole {view rest : View} {found : Json}
    (parsed : Grammar.value view = .matched found rest) :
    view.Splits (view.upTo rest) rest ∧
    ((∀ number, found ≠ .num number) → ∀ count < (view.upTo rest).length, ∀ cut : View,
      cut.chars = view.chars.take count → Grammar.value cut = .noMatch) ∧
    ∀ suffix, ((∃ number, found = .num number) → startsWithDigit suffix = false) →
      ∀ again : View, again.chars = view.upTo rest ++ suffix →
        ∃ left, Grammar.value again = .matched found left ∧ again.Splits (view.upTo rest) left ∧
          left.chars = suffix := by
  obtain ⟨word, split, derived⟩ := value_sound parsed
  rw [split.upTo_eq]
  refine ⟨split, fun noNumber count short cut shown => ?_, fun suffix separate again shown => ?_⟩
  · rcases (value_stays View.lasting_true cut trivial).settled with ⟨other, last, matched⟩ | refused
    · obtain ⟨part, front, written⟩ := value_sound matched
      have taken : word.take count = part ++ last.chars := by
        rw [← front.chars, shown, split.chars, List.take_append_of_le_length (Nat.le_of_lt short)]
      have early : part <+: word.take count := ⟨_, taken.symm⟩
      have whole := derived.prefix_free noNumber written (early.trans (List.take_prefix _ _))
      have lengths := early.length_le
      rw [whole, List.length_take] at lengths
      omega
    · exact refused
  · obtain ⟨front, left⟩ := View.splits_drop word shown
    refine ⟨_, value_of_splits derived front fun number same => ?_, front, left⟩
    rw [left]
    exact separate ⟨number, same⟩

theorem nested_read_whole : ∃ found,
    (∃ rest, Grammar.value (View.of "[-1, \x7b\"a\" :2\x7d]]") = .matched found rest ∧
      rest.text = "]") ∧
    Grammar.value (View.of "[-1, \x7b\"a\" :2\x7d") = .noMatch ∧
    ∃ rest, Grammar.value (View.of "[-1, \x7b\"a\" :2\x7d]7") = .matched found rest ∧
      rest.chars = ['7'] := by
  obtain ⟨rest, parsed, consumed, left⟩ : ∃ rest,
      Grammar.value (View.of "[-1, \x7b\"a\" :2\x7d]]") =
        .matched (.arr [.num (-1), .obj [("a", .num 2)]]) rest ∧
      (View.of "[-1, \x7b\"a\" :2\x7d]]").upTo rest = "[-1, \x7b\"a\" :2\x7d]".toList ∧
      rest.text = "]" := ⟨_, by cbv, by cbv, by cbv⟩
  obtain ⟨_, cut, again⟩ := value_read_whole parsed
  rw [consumed] at cut again
  have noNumber : ∀ number, Json.arr [.num (-1), .obj [("a", .num 2)]] ≠ .num number := by simp
  have shown (text : String) : (View.of text).chars = text.toList := View.chars_ofChars _
  refine ⟨_, ⟨rest, parsed, left⟩, cut noNumber 13 (by decide) _ ?_, ?_⟩
  · rw [shown, shown]
    decide
  · have separate : (∃ number, Json.arr [.num (-1), .obj [("a", .num 2)]] = .num number) →
        startsWithDigit ['7'] = false := by simp
    obtain ⟨last, reparsed, _, remains⟩ :=
      again ['7'] separate (View.of "[-1, \x7b\"a\" :2\x7d]7") ((shown _).trans (by decide))
    exact ⟨last, reparsed, remains⟩

end Descent.Json
