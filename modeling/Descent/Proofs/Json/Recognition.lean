import Descent.Proofs.Json.Completeness
import Descent.Proofs.Json.Soundness
import Mathlib

/-!
The parser of JSON values recognises the grammar, as a parser of prefixes.
-/

namespace Descent.Json.Grammar

theorem value_sound : Sound value Derives := by
  intro view found rest parsed
  exact valueWithin_sound _ parsed

theorem value_of_splits {view rest : View} {word : List Char} {found : Json}
    (derived : Derives word found) (split : view.Splits word rest)
    (ends : ∀ number, found = .num number → startsWithDigit rest.chars = false) :
    value view = .matched found rest := by
  have lengths := split.length
  exact valueWithin_of_splits derived (by omega) split ends

/-- A match consumes a word that derives the value, and every word that derives a value is matched
in front of any text, except that a number is not matched in front of further digits. -/
theorem value_recognises_grammar :
    (∀ view found rest, value view = .matched found rest →
      view.Splits (view.upTo rest) rest ∧ Derives (view.upTo rest) found) ∧
    ∀ word suffix found, Derives word found →
      ¬((∃ number, NumberWord word number) ∧ startsWithDigit suffix = true) →
      ∀ view : View, view.chars = word ++ suffix →
        value view = .matched found (view.drop word.length) ∧
          (view.drop word.length).chars = suffix := by
  constructor
  · intro view found rest parsed
    obtain ⟨word, split, derived⟩ := value_sound parsed
    rw [split.upTo_eq]
    exact ⟨split, derived⟩
  · intro word suffix found derived separate view shown
    obtain ⟨split, left⟩ := View.splits_drop word shown
    refine ⟨value_of_splits derived split fun number same => ?_, left⟩
    subst same
    rw [left, Bool.eq_false_iff]
    intro digit
    cases derived with
    | number written => exact separate ⟨⟨number, written⟩, digit⟩

theorem value_recognised_in_context :
    ∃ view rest, value view = .matched (.arr [.num (-7), .str "a"]) rest ∧
      rest.chars = "]x".toList ∧ view.chars = "[-7 ,\"a\"]]x".toList := by
  have parsed : ∃ rest, value (View.of "[-7 ,\"a\"]") = .matched (.arr [.num (-7), .str "a"]) rest ∧
      (View.of "[-7 ,\"a\"]").upTo rest = "[-7 ,\"a\"]".toList := ⟨_, by cbv, by cbv⟩
  obtain ⟨rest, parsed, consumed⟩ := parsed
  have derived := (value_recognises_grammar.1 _ _ _ parsed).2
  rw [consumed] at derived
  have shown := View.chars_ofChars ("[-7 ,\"a\"]".toList ++ "]x".toList)
  have separate : startsWithDigit "]x".toList = false := by decide
  have again := value_recognises_grammar.2 _ "]x".toList _ derived
    (fun both => by rw [separate] at both; cases both.2) _ shown
  exact ⟨_, _, again.1, again.2, by rw [shown]; decide⟩

end Descent.Json.Grammar
