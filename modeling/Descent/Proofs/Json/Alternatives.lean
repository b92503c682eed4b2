import Descent.Proofs.Json.Nesting
import Mathlib

/-!
The alternatives for a value exclude one another. Each of them ends without a fault on every view,
at most one matches, and so the order in which they are tried makes no difference.
-/

namespace Descent.Json.Grammar

open Descent.Parser

variable {view rest other last : View} {found again : Json} {first : Char}
variable {production second : Production}

/-- The values inside are read without a bound, like the value itself. -/
theorem value_eq_valueOf : value = valueOf value := by
  funext view
  have enough : OpeningsBelow (view.length + 1) view := Nat.lt_succ_of_le (openings_le_length view)
  have whole := reader_value.valueWithin_eq (Nat.lt_succ_of_lt enough)
  have arrays := reader_array.valueWithin_eq enough
  have objects := reader_object.valueWithin_eq enough
  rw [← whole, valueWithin]
  simp only [valueOf, alt_apply, arrays, objects]

namespace Production

def parser (production : Production) : Parser Json :=
  production.parserOf value

theorem parser_settled (production : Production) (view : View) :
    (∃ found rest, production.parser view = .matched found rest) ∨
      production.parser view = .noMatch := by
  have stays : production.parser.Stays .none (fun _ => True) (fun _ => True) holdsNone := by
    have lasting := View.lasting_true
    have values : value.Stays .none (fun _ => True) (fun _ => True) holdsNone := value_stays lasting
    cases production with
    | null => exact null_stays lasting
    | bool => exact bool_stays lasting
    | number => exact number_stays lasting
    | string => exact string_stays lasting
    | array => exact arrayOf_stays lasting (fun _ _ => trivial) values
    | object => exact objectOf_stays lasting (fun _ _ => trivial) values
  exact (stays view trivial).settled

theorem ahead?_of_matched (parsed : production.parser view = .matched found rest) :
    ahead? view = some production := by
  by_contra foreign
  have refused : production.parser view = .noMatch := parserOf_eq_noMatch foreign
  rw [parsed] at refused
  cases refused

theorem value_of_ahead (shown : ahead? view = some production) :
    value view = production.parser view := by
  rw [value_eq_valueOf, valueOf_of_ahead shown, parser]

theorem choice_eq_value {order : List Production} (complete : ∀ production, production ∈ order) :
    choice value order = value := by
  funext view
  cases shown : ahead? view with
  | none => rw [choice_of_none shown, value_eq_valueOf, valueOf_of_none_ahead shown]
  | some production =>
    rw [choice_of_ahead shown (complete production), value_of_ahead shown, parser]

theorem derives_digit (digit : first.isDigit = true) : ∃ value, Derives [first] value := by
  have bounds := Char.isDigit_iff_toNat.mp digit
  have run : DigitRun [first] := ⟨by simp, by simpa using digit⟩
  have small : Nat.ofDigitChars 10 [first] 0 ≤ 9 := by
    rw [Nat.ofDigitChars_cons, Nat.ofDigitChars_nil]
    simp only [Char.reduceToNat] at bounds ⊢
    omega
  exact ⟨_, .number (.plain run) (by simp only [least]; omega) (by simp only [greatest]; omega)⟩

/-- Behind every character that can begin a production some text goes on with it. -/
theorem derives_of_ofFirst? (begins : ofFirst? first = some production) :
    ∃ more value, Derives (first :: more) value := by
  unfold ofFirst? at begins
  split at begins
  · rename_i digit
    exact ⟨[], derives_digit digit⟩
  have noBlanks : BlankRun [] := by simp [BlankRun]
  split at begins
  · exact ⟨['0'], _, .number (.negative ⟨by simp, by simp⟩) (by decide) (by decide)⟩
  · exact ⟨_, _, .null⟩
  · exact ⟨_, _, .yes⟩
  · exact ⟨_, _, .no⟩
  · exact ⟨_, _, .string (.quoted List.not_mem_nil)⟩
  · exact ⟨_, _, .array (.empty noBlanks)⟩
  · exact ⟨_, _, .object (.empty noBlanks)⟩
  · cases begins

theorem ofFirst?_eq_some_iff : ofFirst? first = some production ↔
    ∃ view found rest, view.chars.head? = some first ∧
      production.parser view = .matched found rest := by
  constructor
  · intro begins
    obtain ⟨more, found, derived⟩ := derives_of_ofFirst? begins
    obtain ⟨split, left⟩ := View.splits_drop (first :: more)
      ((View.chars_ofChars _).trans (List.append_nil _).symm)
    have head := split.head?_chars
    have read := value_of_splits derived split fun _ _ => by rw [left]; rfl
    rw [value_of_ahead ((ahead?_of_head head).trans begins)] at read
    exact ⟨_, found, _, head, read⟩
  · rintro ⟨view, found, rest, head, parsed⟩
    rw [← ahead?_of_head head, ahead?_of_matched parsed]

/-- What one production has read, no other one reads again, whatever stands behind it. -/
theorem not_read_again (parsed : production.parser view = .matched found rest)
    (front : view.upTo rest <+: other.chars)
    (parsedToo : second.parser other = .matched again last) : production = second := by
  have shown := ahead?_of_matched parsed
  obtain ⟨word, split, derived⟩ := value_sound ((value_of_ahead shown).trans parsed)
  obtain ⟨char, more, rfl, _⟩ := derived.opens
  rw [split.upTo_eq] at front
  obtain ⟨others, begins⟩ := front
  have head : other.chars.head? = some char := by rw [← begins]; rfl
  have shownToo := ahead?_of_matched parsedToo
  rw [ahead?_of_head split.head?_chars] at shown
  rw [ahead?_of_head head, shown] at shownToo
  exact Option.some.inj shownToo

structure Exclusive (view : View) : Prop where
  settled : ∀ production : Production,
    (∃ found rest, production.parser view = .matched found rest) ∨
      production.parser view = .noMatch
  /-- The one that matches is fixed by the first character. -/
  fixed : ∀ (production : Production) found rest, production.parser view = .matched found rest →
    view.chars.head?.bind ofFirst? = some production
  alone : ∀ (production second : Production) found rest again last,
    production.parser view = .matched found rest → second.parser view = .matched again last →
      production = second
  /-- Where the first character begins a production no other one matches, even if that one does not
  match in the end. -/
  committed : ∀ production second, view.chars.head?.bind ofFirst? = some production →
    second ≠ production → second.parser view = .noMatch
  /-- A choice among all of them, in any order, is the value. -/
  any_order : ∀ order, (∀ production, production ∈ order) → choice value order view = value view

theorem exclusive (view : View) : Exclusive view where
  settled := fun production => parser_settled production view
  fixed := fun _ _ _ parsed => ahead?_of_matched parsed
  alone := by
    intro production second found rest again last parsed parsedToo
    have same := (ahead?_of_matched parsed).symm.trans (ahead?_of_matched parsedToo)
    exact Option.some.inj same
  committed := by
    intro production second shown different
    refine parserOf_eq_noMatch fun shownToo => different ?_
    exact Option.some.inj (shownToo.symm.trans shown)
  any_order := fun _ complete => congrFun (choice_eq_value complete) view

/-- The productions exclude one another by their first characters, each of which does begin a text
that is matched. Tried in any order they are the value, and what one of them has read no other one
reads again. -/
theorem productions_exclusive :
    (∀ view, Exclusive view) ∧
    (∀ first production, ofFirst? first = some production ↔
      ∃ view found rest, view.chars.head? = some first ∧
        production.parser view = .matched found rest) ∧
    ∀ (production second : Production) (view rest other last : View) (found again : Json),
      production.parser view = .matched found rest → view.upTo rest <+: other.chars →
        second.parser other = .matched again last → production = second :=
  ⟨exclusive, fun _ _ => ofFirst?_eq_some_iff, fun _ _ _ _ _ _ _ _ => not_read_again⟩

/-- Tried from the last to the first, the productions read the same number. -/
theorem number_in_reversed_choice :
    (∃ rest, choice value [.object, .array, .string, .number, .bool, .null] (View.of "-1,") =
        .matched (.num (-1)) rest ∧ rest.text = ",") ∧
      null.parser (View.of "-1,") = .noMatch ∧
      ∀ second found rest, second.parser (View.of "-1]") = .matched found rest →
        number = second := by
  obtain ⟨rest, parsed, consumed, left⟩ : ∃ rest,
      number.parser (View.of "-1,") = .matched (.num (-1)) rest ∧
        (View.of "-1,").upTo rest = ['-', '1'] ∧ rest.text = "," :=
    ⟨_, by cbv, by cbv, by cbv⟩
  obtain ⟨every, _, apart⟩ := productions_exclusive
  have whole : choice value [.object, .array, .string, .number, .bool, .null] (View.of "-1,") =
      value (View.of "-1,") := (every _).any_order _ fun production => by cases production <;> simp
  have shown : ahead? (View.of "-1,") = some number := rfl
  refine ⟨⟨rest, ?_, left⟩, (every _).committed number null rfl (by simp), ?_⟩
  · rw [whole, value_of_ahead shown, parsed]
  · intro second found last read
    refine apart _ _ _ _ _ _ _ _ parsed ?_ read
    rw [consumed, View.of, View.chars_ofChars]
    exact ⟨[']'], rfl⟩

end Production

end Descent.Json.Grammar
