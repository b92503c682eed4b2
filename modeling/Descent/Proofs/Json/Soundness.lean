import Descent.Proofs.Json.Number

/-!
Whatever the parsers of the grammar match is a word that derives the value they give.
-/

namespace Descent.Json.Grammar

open Descent.Parser

variable {α : Type}

def Sound (parser : Parser α) (language : List Char → α → Prop) : Prop :=
  ∀ {view value rest}, parser view = .matched value rest →
    ∃ word, view.Splits word rest ∧ language word value

theorem blankRun_span (view : View) : BlankRun (view.span isBlank).1.chars := by
  intro char member
  exact View.passes_of_mem_span member

theorem stringLiteral_sound : Sound stringLiteral fun word content => StringWord word content.text := by
  intro view content rest parsed
  simp only [stringLiteral, skip_apply, andThen_apply, span_apply, Reply.bind_eq_matched,
    Reply.matched.injEq, char_eq_matched] at parsed
  obtain ⟨_, _, ⟨_, middle, ⟨_, opening⟩, rfl, rfl⟩, _, _, ⟨_, closing⟩, rfl, rfl⟩ := parsed
  refine ⟨_, (opening.trans (middle.splits_span _)).trans closing, .quoted ?_⟩
  intro member
  have passes := View.passes_of_mem_span member
  simp at passes

theorem spacedMark_sound (mark : Char) : Sound (spacedMark mark) fun word _ =>
    ∃ before after, word = before ++ mark :: after ∧ BlankRun before ∧ BlankRun after := by
  intro view found rest parsed
  simp only [spacedMark, skip_apply, andThen_apply, whitespace, span_apply, Reply.bind_eq_matched,
    Reply.matched.injEq, char_eq_matched] at parsed
  obtain ⟨_, middle, ⟨_, _, ⟨rfl, rfl⟩, _, marked⟩, _, _, ⟨rfl, rfl⟩, _, rfl⟩ := parsed
  refine ⟨_, ((view.splits_span isBlank).trans marked).trans (middle.splits_span isBlank),
    _, _, ?_, blankRun_span view, blankRun_span middle⟩
  rw [List.append_assoc]
  rfl

theorem entryList_of_repeats {entry : Parser α} {language : List Char → α → Prop}
    (sound : Sound entry language) {start view rest : View} {word : List Char} {value : α}
    {values : List α} (first : start.Splits word view) (written : language word value)
    (run : Repeats ((spacedMark ',').andThen entry) view values rest) :
    ∃ body, start.Splits body rest ∧ EntryList language body (value :: values) := by
  induction run generalizing start word value with
  | stops _ => exact ⟨word, first, .one written⟩
  | stalls _ _ => exact ⟨word, first, .one written⟩
  | goesOn parsed _ _ ih =>
    rw [andThen_apply] at parsed
    obtain ⟨_, point, marked, found⟩ := Reply.bind_eq_matched.mp parsed
    obtain ⟨mark, marks, before, after, rfl, blanksBefore, blanksAfter⟩ :=
      spacedMark_sound ',' marked
    obtain ⟨part, next, partWritten⟩ := sound found
    obtain ⟨others, last, list⟩ := ih next partWritten
    refine ⟨_, ?_, .more written blanksBefore blanksAfter list⟩
    have whole := (first.trans marks).trans last
    rwa [← List.append_assoc] at whole

theorem sepBy_sound {entry : Parser α} {language : List Char → α → Prop}
    (sound : Sound entry language) {view rest : View} {values : List α}
    (parsed : sepBy (spacedMark ',') entry view = .matched values rest) :
    values = [] ∧ rest = view ∨
      ∃ body, view.Splits body rest ∧ EntryList language body values := by
  rcases alt_eq_matched parsed with some | ⟨_, none⟩
  · rw [lift2_apply] at some
    obtain ⟨value, middle, first, others⟩ := Reply.bind_eq_matched.mp some
    obtain ⟨values, last, run, joined⟩ := Reply.bind_eq_matched.mp others
    cases joined
    obtain ⟨word, split, written⟩ := sound first
    exact .inr (entryList_of_repeats sound split written (repeats_of_many run))
  · cases none
    exact .inl ⟨rfl, rfl⟩

theorem enclosed_sound {left right : Char} {entry : Parser α} {language : List Char → α → Prop}
    (sound : Sound entry language) :
    Sound (enclosed left right entry) (Enclosed left right language) := by
  intro view values rest parsed
  simp only [enclosed, skip_apply, andThen_apply, whitespace, span_apply, Reply.bind_eq_matched,
    Reply.matched.injEq, char_eq_matched] at parsed
  obtain ⟨found, middle, ⟨_, _, ⟨_, point, ⟨_, opening⟩, rfl, rfl⟩, entries⟩,
    _, _, ⟨_, _, ⟨rfl, rfl⟩, _, closing⟩, rfl, rfl⟩ := parsed
  have front := opening.trans (point.splits_span isBlank)
  have back := (middle.splits_span isBlank).trans closing
  rcases sepBy_sound sound entries with ⟨rfl, rfl⟩ | ⟨body, split, list⟩
  · refine ⟨_, front.trans back, ?_⟩
    have blanks := (blankRun_span point).append (blankRun_span (point.span isBlank).2)
    have empty : Enclosed left right language _ [] := .empty blanks
    simpa only [List.append_assoc, List.cons_append, List.nil_append] using empty
  · refine ⟨_, (front.trans split).trans back, ?_⟩
    have entries : Enclosed left right language _ found :=
      .entries (blankRun_span point) list (blankRun_span middle)
    simpa only [List.append_assoc, List.cons_append, List.nil_append] using entries

theorem pairOf_sound {value : Parser Json} {language : List Char → Json → Prop}
    (sound : Sound value language) : Sound (pairOf value) (MemberWord language) := by
  intro view pair rest parsed
  simp only [pairOf, ap_apply, map_apply, andThen_apply, Reply.bind_assoc, Reply.deliver_ok,
    Reply.bind_matched, Reply.bind_eq_matched, Reply.matched.injEq] at parsed
  obtain ⟨key, middle, named, _, point, marked, member, _, found, rfl, rfl⟩ := parsed
  obtain ⟨name, first, quoted⟩ := stringLiteral_sound named
  obtain ⟨_, mark, before, after, rfl, blanksBefore, blanksAfter⟩ := spacedMark_sound ':' marked
  obtain ⟨word, last, written⟩ := sound found
  refine ⟨_, ?_, .pair quoted blanksBefore blanksAfter written⟩
  have whole := (first.trans mark).trans last
  rwa [← List.append_assoc] at whole

theorem literal_sound (text : String) (value : Json) :
    Sound ((literal text).always value) fun word found => word = text.toList ∧ found = value := by
  intro view found rest parsed
  obtain ⟨_, _, read, made⟩ := Reply.bind_eq_matched.mp parsed
  cases made
  exact ⟨_, (literal_eq_matched read).2, rfl, rfl⟩

theorem valueOf_sound {inner : Parser Json} (sound : Sound inner Derives) :
    Sound (valueOf inner) Derives := by
  intro view value rest parsed
  rcases alt_eq_matched parsed with parsed | ⟨_, object⟩
  rcases alt_eq_matched parsed with parsed | ⟨_, array⟩
  rcases alt_eq_matched parsed with parsed | ⟨_, string⟩
  rcases alt_eq_matched parsed with parsed | ⟨_, number⟩
  rcases alt_eq_matched parsed with null | ⟨_, bool⟩
  · obtain ⟨word, split, rfl, rfl⟩ := literal_sound _ _ null
    exact ⟨_, split, .null⟩
  · rcases alt_eq_matched bool with yes | ⟨_, no⟩
    · obtain ⟨word, split, rfl, rfl⟩ := literal_sound _ _ yes
      exact ⟨_, split, .yes⟩
    · obtain ⟨word, split, rfl, rfl⟩ := literal_sound _ _ no
      exact ⟨_, split, .no⟩
  · obtain ⟨word, size, split, written, _, lower, upper, rfl⟩ := number_eq_matched number
    exact ⟨word, split, .number written lower upper⟩
  · obtain ⟨content, _, quoted, made⟩ := Reply.bind_eq_matched.mp string
    cases made
    obtain ⟨word, split, written⟩ := stringLiteral_sound quoted
    exact ⟨word, split, .string written⟩
  · obtain ⟨values, _, entries, made⟩ := Reply.bind_eq_matched.mp array
    cases made
    obtain ⟨word, split, written⟩ := enclosed_sound sound entries
    exact ⟨word, split, .array written⟩
  · obtain ⟨pairs, _, entries, made⟩ := Reply.bind_eq_matched.mp object
    cases made
    obtain ⟨word, split, written⟩ := enclosed_sound (pairOf_sound sound) entries
    exact ⟨word, split, .object written⟩

theorem valueWithin_sound (depth : Nat) : Sound (valueWithin depth) Derives := by
  induction depth with
  | zero =>
    intro view value rest parsed
    exact nomatch parsed
  | succ depth ih => exact valueOf_sound ih

end Descent.Json.Grammar
