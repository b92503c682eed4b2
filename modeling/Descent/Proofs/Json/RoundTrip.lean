import Descent.Json.Document
import Descent.Proofs.Json.Provenance
import Descent.Proofs.Json.Recognition
import Descent.Proofs.Json.Rendering
import Descent.Proofs.Json.Sameness

/-!
What is written for a value is read back as the value, and only values that the notation can carry
come back.
-/

namespace Descent.Json

open Grammar

variable {value : Json} {text : String}

theorem Carried.derives_render (carried : value.Carried) (indent : Option Int) :
    Derives (render indent value).toList value :=
  derives_renderAt indent 0 carried

theorem Derives.read (derived : Derives text.toList value) (strict : Bool) :
    read strict text = .ok value := by
  obtain ⟨char, more, shown, solid⟩ := derived.opens
  have whole : (View.of text).chars = text.toList := View.chars_ofChars _
  have start : ((View.of text).span isBlank).2 = View.of text := by
    refine (View.span_of_splits (View.splits_nil _) (fun _ member => nomatch member) ?_).2
    rw [whole, shown]
    exact solid
  obtain ⟨rest, split, left⟩ : ∃ rest, (View.of text).Splits text.toList rest ∧ rest.chars = [] :=
    ⟨_, View.splits_drop text.toList (whole.trans (List.append_nil _).symm)⟩
  have parsed : valueWithin (text.length + 1) (View.of text) = .matched value rest := by
    refine valueWithin_of_splits derived ?_ split fun number same => ?_
    · rw [String.length_toList]
      exact Nat.lt_succ_self _
    · rw [left]
      rfl
  have nothing : (rest.span isBlank).2.isEmpty = true := by
    rw [View.isEmpty_iff, View.chars_span_snd, left]
    rfl
  rw [Json.read, readWithin, start, ite_self, parsed]
  simp only [nothing, Bool.not_true, Bool.and_false, Bool.false_eq_true, if_false]

theorem derives_of_read {strict : Bool} (parsed : read strict text = .ok value) :
    ∃ word, Derives word value ∧ word <:+: text.toList := by
  have whole : (View.of text).chars = text.toList := View.chars_ofChars _
  have suffix : (if strict then ((View.of text).span isBlank).2 else View.of text).chars <:+
      text.toList := by
    rw [← whole]
    split
    · exact ⟨_, ((View.of text).splits_span isBlank).chars.symm⟩
    · exact List.suffix_refl _
  rw [read, readWithin] at parsed
  split at parsed
  · rename_i found rest matched
    obtain ⟨word, split, derived⟩ := valueWithin_sound _ matched
    have inside : word <:+: text.toList := by
      refine List.IsInfix.trans ?_ suffix.isInfix
      rw [split.chars]
      exact (List.prefix_append _ _).isInfix
    dsimp only at parsed
    split at parsed
    · exact nomatch parsed
    · cases parsed
      exact ⟨word, derived, inside⟩
  all_goals exact nomatch parsed

/-- A value without quotes in its texts is read back, members in their order, whatever follows; a
value with a quote in one of its texts is not. -/
theorem render_round_trip (indent : Option Int) (value : Json)
    (inRange : ∀ number ∈ value.numbers, least ≤ number ∧ number ≤ greatest)
    (distinctKeys : value.DistinctKeys) :
    ((∀ text ∈ value.texts, '"' ∉ text.toList) →
      (∀ (view : View) suffix, view.chars = (render indent value).toList ++ suffix →
        ¬((∃ number, value = .num number) ∧ startsWithDigit suffix = true) →
        Grammar.value view = .matched value (view.drop (render indent value).length) ∧
          (view.drop (render indent value).length).chars = suffix) ∧
      ∀ strict, read strict (render indent value) = .ok value) ∧
    ((∃ text ∈ value.texts, '"' ∈ text.toList) →
      ∀ strict found, read strict (render indent value) = .ok found →
        found.same value = false) := by
  constructor
  · intro unquoted
    have derived := Carried.derives_render ⟨inRange, unquoted, distinctKeys⟩ indent
    refine ⟨fun view suffix shown separate => ?_, derived.read⟩
    obtain ⟨split, left⟩ := View.splits_drop _ shown
    rw [String.length_toList] at split left
    refine ⟨value_of_splits derived split fun number same => ?_, left⟩
    rw [left, Bool.eq_false_iff]
    exact fun digit => separate ⟨⟨number, same⟩, digit⟩
  · rintro ⟨text, inside, quote⟩ strict found parsed
    obtain ⟨word, derived, _⟩ := derives_of_read parsed
    rw [Bool.eq_false_iff]
    intro equal
    have kept := texts_subset_of_same derived.distinctKeys distinctKeys equal inside
    exact (derived.foundIn text kept).1 quote

theorem quotes_decide_round_trip :
    read true (render (some 2) (.obj [("a", .arr [.num (-1), .str "b"]), ("", .null)])) =
        .ok (.obj [("a", .arr [.num (-1), .str "b"]), ("", .null)]) ∧
      ∀ strict found, read strict (render none (.arr [.str "a\"", .num 7])) = .ok found →
        found.same (.arr [.str "a\"", .num 7]) = false := by
  constructor
  · refine ((render_round_trip (some 2) _ ?_ ?_).1 ?_).2 true
    · simp [numbers, parts, partsAll, partsMembers, ownNumbers, least, greatest]
    · simp [DistinctKeys, parts, partsAll, partsMembers]
    · simp [texts, parts, partsAll, partsMembers, ownTexts]
  · refine (render_round_trip none _ ?_ ?_).2 ?_
    · simp [numbers, parts, partsAll, ownNumbers, least, greatest]
    · simp [DistinctKeys, parts, partsAll]
    · simp [texts, parts, partsAll, ownTexts]

/-- What a reading returns is read again from any layout of it. -/
theorem read_normal_form {strict : Bool} (parsed : read strict text = .ok value) :
    (∀ number ∈ value.numbers, least ≤ number ∧ number ≤ greatest) ∧
    (∀ content ∈ value.texts, '"' ∉ content.toList ∧ content.toList <:+: text.toList) ∧
    ∀ again indent, read again (render indent value) = .ok value ∧
      ∀ other, (read again (render indent value)).map (render other) = .ok (render other value) := by
  obtain ⟨word, derived, inside⟩ := derives_of_read parsed
  have carried : value.Carried :=
    ⟨derived.inRange, fun content member => (derived.foundIn content member).1,
      derived.distinctKeys⟩
  refine ⟨derived.inRange, fun content member => ?_, fun again indent => ?_⟩
  · have found := derived.foundIn content member
    exact ⟨found.1, found.2.trans inside⟩
  · have same := (carried.derives_render indent).read again
    exact ⟨same, fun other => congrArg (Except.map (render other)) same⟩

theorem read_normal_form_of_repeated_key :
    ∃ value, read true " \x7b\"a\" :[1 ,\"x\\\"],\"b\":-07,\"a\":true\x7d" = .ok value ∧
      ∀ again indent, read again (render indent value) = .ok value := by
  have parsed : read true " \x7b\"a\" :[1 ,\"x\\\"],\"b\":-07,\"a\":true\x7d" =
      .ok (.obj [("a", .bool true), ("b", .num (-7))]) := by cbv
  exact ⟨_, parsed, fun again indent => ((read_normal_form parsed).2.2 again indent).1⟩

end Descent.Json
