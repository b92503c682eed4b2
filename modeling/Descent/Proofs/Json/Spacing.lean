import Descent.Proofs.Json.Rendering

/-!
All layouts of a value differ in nothing but blanks outside strings.
-/

namespace Descent.Json

def unspaced : Bool → List Char → List Char
  | _, [] => []
  | quoted, char :: rest =>
    if quoted = false ∧ isBlank char = true then unspaced quoted rest
    else char :: unspaced (if char = '"' then !quoted else quoted) rest

def SpacedAlike (first second : List Char) : Prop :=
  ∀ rest others, unspaced false rest = unspaced false others →
    unspaced false (first ++ rest) = unspaced false (second ++ others)

namespace SpacedAlike

variable {first second third fourth text content : List Char}

theorem append (alike : SpacedAlike first second) (alikeToo : SpacedAlike third fourth) :
    SpacedAlike (first ++ third) (second ++ fourth) := by
  intro rest others same
  rw [List.append_assoc, List.append_assoc]
  exact alike _ _ (alikeToo _ _ same)

theorem unspaced_blanks (run : BlankRun text) (rest : List Char) :
    unspaced false (text ++ rest) = unspaced false rest := by
  induction text with
  | nil => rfl
  | cons char text ih =>
    obtain ⟨blank, later⟩ := List.forall_mem_cons.mp run
    rw [List.cons_append, unspaced, if_pos ⟨rfl, blank⟩, ih later]

theorem blanks (run : BlankRun first) (runToo : BlankRun second) : SpacedAlike first second := by
  intro rest others same
  rw [unspaced_blanks run, unspaced_blanks runToo, same]

theorem unquoted (free : '"' ∉ text) : SpacedAlike text text := by
  intro rest others same
  induction text with
  | nil => exact same
  | cons char text ih =>
    rw [List.mem_cons, not_or] at free
    rw [List.cons_append, List.cons_append, unspaced, unspaced, if_neg (Ne.symm free.1), ih free.2]

theorem unspaced_content (free : '"' ∉ content) (rest : List Char) :
    unspaced true (content ++ '"' :: rest) = content ++ '"' :: unspaced false rest := by
  induction content with
  | nil => simp [unspaced]
  | cons char content ih =>
    rw [List.mem_cons, not_or] at free
    simp only [List.cons_append, unspaced, Bool.true_eq_false, false_and, if_false,
      Ne.symm free.1, ih free.2]

theorem quoted (free : '"' ∉ content) :
    SpacedAlike ('"' :: content ++ ['"']) ('"' :: content ++ ['"']) := by
  intro rest others same
  have visible : isBlank '"' = false := by decide
  simp only [List.cons_append, List.append_assoc, List.nil_append, unspaced, visible,
    Bool.false_eq_true, and_false, if_false, if_true, Bool.not_false, unspaced_content free, same]

section Entries

variable {α : Type} {render other : α → String} {values : List α}

theorem intercalate {between otherBetween : String} {after otherAfter : List Char}
    (comma : between.toList = ',' :: after) (run : BlankRun after)
    (commaToo : otherBetween.toList = ',' :: otherAfter) (runToo : BlankRun otherAfter)
    (alike : ∀ value ∈ values, SpacedAlike (render value).toList (other value).toList) :
    SpacedAlike (between.intercalate (values.map render)).toList
      (otherBetween.intercalate (values.map other)).toList := by
  induction values with
  | nil => exact fun _ _ same => same
  | cons value rest ih =>
    obtain ⟨first, later⟩ := List.forall_mem_cons.mp alike
    cases rest with
    | nil => simpa using first
    | cons next others =>
      have mark : SpacedAlike [','] [','] := unquoted (by decide)
      rw [toList_intercalate_cons comma, toList_intercalate_cons commaToo]
      exact (first.append (mark.append (blanks run runToo))).append (ih later)

theorem enclose {spacing otherSpacing : Spacing} (blank : BlankSpacing spacing)
    (blankToo : BlankSpacing otherSpacing) {left right : String} (leftFree : '"' ∉ left.toList)
    (rightFree : '"' ∉ right.toList)
    (alike : ∀ value ∈ values, SpacedAlike (render value).toList (other value).toList) :
    SpacedAlike (Json.enclose spacing left right (values.map render)).toList
      (Json.enclose otherSpacing left right (values.map other)).toList := by
  obtain ⟨after, comma, run⟩ := blank.between
  obtain ⟨otherAfter, commaToo, runToo⟩ := blankToo.between
  have body := intercalate comma run commaToo runToo alike
  have opening := (unquoted leftFree).append (blanks blank.opening blankToo.opening)
  have closing := (blanks blank.closing blankToo.closing).append (unquoted rightFree)
  have whole := (opening.append body).append closing
  simpa only [Json.enclose, String.toList_append, List.append_assoc] using whole

end Entries

end SpacedAlike

theorem NumberWord.signs_or_digits {word : List Char} {number : Int}
    (written : NumberWord word number) : ∀ char ∈ word, char = '-' ∨ char.isDigit = true := by
  intro char inside
  cases written with
  | plain run => exact .inr (run.2 char inside)
  | negative run => exact (List.mem_cons.mp inside).imp_right (run.2 char)

/-- Whatever the indents and the depths, a value is written the same apart from blanks. -/
theorem spacedAlike_renderAt (indent other : Option Int) (depth otherDepth : Nat) {value : Json}
    (free : ∀ text ∈ value.texts, '"' ∉ text.toList) :
    SpacedAlike (renderAt indent depth value).toList (renderAt other otherDepth value).toList := by
  induction value generalizing depth otherDepth with
  | null =>
    rw [renderAt, renderAt]
    exact .unquoted (by decide)
  | bool value =>
    rw [renderAt, renderAt]
    cases value <;> exact .unquoted (by decide)
  | num value =>
    rw [renderAt, renderAt]
    refine .unquoted fun inside => ?_
    exact absurd ((numberWord_toString value).signs_or_digits '"' inside) (by decide)
  | str value =>
    rw [renderAt, renderAt, toList_quoted]
    exact .quoted (free value (mem_texts.mpr (.inl (mem_parts_self _))))
  | arr values ih =>
    by_cases none : values = []
    · rw [none, renderAt, renderAt]
      exact .unquoted (by decide)
    · rw [renderAt_arr indent depth none, renderAt_arr other otherDepth none]
      refine SpacedAlike.enclose (blankSpacing indent depth) (blankSpacing other otherDepth)
        (by decide) (by decide) fun value inside => ?_
      exact ih value inside (depth + 1) (otherDepth + 1) fun text deep =>
        free text (texts_subset_of_parts (parts_subset_arr inside) deep)
  | obj members ih =>
    by_cases none : members = []
    · rw [none, renderAt, renderAt]
      exact .unquoted (by decide)
    · rw [renderAt_obj indent depth none, renderAt_obj other otherDepth none]
      refine SpacedAlike.enclose (blankSpacing indent depth) (blankSpacing other otherDepth)
        (by decide) (by decide) fun member inside => ?_
      have name := SpacedAlike.quoted (free _ (key_mem_texts inside))
      have colon : SpacedAlike [':', ' '] [':', ' '] := .unquoted (by decide)
      rw [toList_renderMember, toList_renderMember]
      refine (name.append colon).append (ih member inside (depth + 1) (otherDepth + 1) ?_)
      exact fun text deep => free text (texts_subset_of_parts (parts_subset_obj inside) deep)

end Descent.Json
