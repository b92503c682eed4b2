import Descent.Proofs.Source.Caret

/-!
How far the carets of a diagnostic go. They are cut off at the end of the row, its break included, but the
row is shown without its break. So up to two of them can have nothing above them.
-/

namespace Descent

open LineBreak

def lastLine (text : List Char) : List Char :=
  text.rtakeWhile (· != '\n')

def caretCount (text : List Char) : Nat :=
  (lastLine text).count '^'

def restOfLine (text : List Char) (offset : Nat) : List Char :=
  (text.drop offset).takeWhile fun char => char != '\r' && char != '\n'

theorem lastLine_append {first last : List Char} (unbroken : Unbroken last) :
    lastLine (first ++ '\n' :: last) = last := by
  have passes : ∀ char ∈ last.reverse, (char != '\n') = true := by
    intro char inside
    exact bne_iff_ne.mpr (unbroken char (List.mem_reverse.mp inside)).2
  rw [lastLine, List.rtakeWhile, List.reverse_append, List.reverse_cons, List.append_assoc,
    List.takeWhile_append_of_pos passes, List.singleton_append,
    List.takeWhile_cons_of_neg (by decide), List.append_nil, List.reverse_reverse]

theorem count_caret_padding (text : List Char) : (padding text).count '^' = 0 := by
  rw [List.count_eq_zero]
  intro inside
  obtain ⟨char, _, same⟩ := List.mem_map.mp inside
  split at same <;> exact absurd same (by decide)

theorem restOfLine_of_split {text body rest : List Char} {start column : Nat}
    (split : text.drop start = body ++ rest) (unbroken : Unbroken body)
    (ended : ∀ char, rest.head? = some char → char = '\r' ∨ char = '\n')
    (bound : column ≤ body.length) : restOfLine text (start + column) = body.drop column := by
  have passes : ∀ char ∈ body.drop column, (char != '\r' && char != '\n') = true := by
    intro char inside
    obtain ⟨notReturn, notFeed⟩ := unbroken char (List.mem_of_mem_drop inside)
    rw [bne_iff_ne.mpr notReturn, bne_iff_ne.mpr notFeed, Bool.and_self]
  have stopped : rest.takeWhile (fun char => char != '\r' && char != '\n') = [] := by
    cases rest with
    | nil => rfl
    | cons char more =>
      rcases ended char rfl with rfl | rfl
      all_goals exact List.takeWhile_cons_of_neg (by decide)
  rw [restOfLine, ← List.drop_drop, split, List.drop_append_of_le_length bound,
    List.takeWhile_append_of_pos passes, stopped, List.append_nil]

namespace Source

variable {source : Source} {row start : Nat}

def EndsRow (source : Source) (place : Nat) (mark : List Char) : Prop :=
  mark = [] ∧ place = source.content.length ∨ BreakAt source.content place mark

theorem EndsRow.marked {place : Nat} {mark : List Char} (ended : source.EndsRow place mark) :
    ∀ char ∈ mark, char = '\r' ∨ char = '\n' := by
  rcases ended with ⟨rfl, _⟩ | found
  · nofun
  · exact found.marked

theorem EndsRow.head_marked {place : Nat} {mark rest : List Char} (ended : source.EndsRow place mark)
    (behind : source.content.drop place = mark ++ rest) :
    ∀ char, (mark ++ rest).head? = some char → char = '\r' ∨ char = '\n' := by
  intro char here
  rcases ended with ⟨rfl, rfl⟩ | found
  · rw [← behind, List.drop_length] at here
    cases here
  · have size := found.length_pos
    rw [List.head?_append_of_ne_nil _ (List.ne_nil_of_length_pos size)] at here
    exact found.marked char (List.mem_of_mem_head? here)

theorem exists_row_end (here : source.starts[row]? = some start) :
    ∃ body mark, between source.content start (source.stop row) = body ++ mark ∧ Unbroken body ∧
      source.EndsRow (start + body.length) mark := by
  cases next : source.starts[row + 1]? with
  | some later =>
    obtain ⟨body, mark, split, found, unbroken⟩ := endsInBreak_of_next here next
    exact ⟨body, mark, split, unbroken, .inr found⟩
  | none =>
    refine ⟨_, [], (List.append_nil _).symm, unbroken_of_last here next, .inl ⟨rfl, ?_⟩⟩
    have stop : source.stop row = source.content.length := by rw [Source.stop, next, Option.getD_none]
    have bounds := stop_le here
    rw [length_between bounds.2]
    omega

/-- The rest of a row behind a column is what the row has there in front of its break. -/
theorem restOfLine_of_row {body mark : List Char} {column : Nat}
    (split : between source.content start (source.stop row) = body ++ mark) (unbroken : Unbroken body)
    (ended : source.EndsRow (start + body.length) mark) (bound : column ≤ body.length) :
    restOfLine source.content (start + column) = body.drop column := by
  have joined : source.content.drop start = body ++
      (mark ++ (source.content.drop start).drop (source.stop row - start)) := by
    rw [← List.append_assoc, ← split, between, List.take_append_drop]
  have behind := congrArg (List.drop body.length) joined
  rw [List.drop_drop, List.drop_left] at behind
  exact restOfLine_of_split joined unbroken (ended.head_marked behind) bound

theorem caretCount_eq {column : Nat} {message : String} {width : Int} {offset : Nat} {line : List Char}
    (place : source.rowColumn offset = (row, (column : Int)))
    (present : source.line? row = some line) :
    caretCount (source.diagnostic offset message width).toList =
      (max 1 (min width (line.length - column))).toNat := by
  have caption : " near here".toList.count '^' = 0 := by decide
  rw [caretCount, toList_diagnostic place present, ← List.cons_append, ← List.append_assoc,
    lastLine_append (unbroken_underline _ _), List.count_append, List.count_append, count_caret_padding,
    List.count_replicate_self, caption, Nat.zero_add, Nat.add_zero]

/-- Carets are cut off behind the break that ends the row, and not in front of it. So they stay within
the text of the row if there are no more to draw than it has characters, and else only where the row ends
with the text. -/
theorem carets_cut_behind_break (source : Source) (message : String) {offset : Nat} {char : Char}
    {width : Int} (here : source.content[offset]? = some char) (inLine : char ≠ '\r' ∧ char ≠ '\n')
    (positive : 1 ≤ width) :
    let room := (restOfLine source.content offset).length
    let carets := caretCount (source.diagnostic offset message width).toList
    1 ≤ carets ∧ ∃ mark, source.EndsRow (offset + room) mark ∧
      (carets : Int) = min width (room + mark.length) ∧
      (carets ≤ room ↔ width ≤ room ∨ offset + room = source.content.length) := by
  intro room carets
  have before := (List.getElem?_eq_some_iff.mp here).1
  obtain ⟨row, column, line, located⟩ := located_of_le (Nat.le_of_lt before)
  obtain ⟨start, begun, rfl⟩ := starts_of_lines located.present
  have total := located.total
  rw [length_flatten_take_lines begun] at total
  obtain ⟨inside, there⟩ := located.within before
  have counted : carets = _ := caretCount_eq located.place (line?_of_starts begun)
  obtain ⟨body, mark, split, unbroken, ended⟩ := exists_row_end begun
  rw [split, List.length_append] at counted
  have inBody : column < body.length := by
    rw [here, split] at there
    refine Nat.lt_of_not_le fun behind => ?_
    rw [List.getElem?_append_right behind] at there
    rcases ended.marked char (List.mem_of_getElem? there.symm) with same | same
    · exact inLine.1 same
    · exact inLine.2 same
  have rest := restOfLine_of_row split unbroken ended (Nat.le_of_lt inBody)
  have size : room = body.length - column := by rw [← List.length_drop, ← rest, ← total]
  have stop : offset + room = start + body.length := by omega
  refine ⟨by omega, mark, by rwa [stop], by omega, ?_⟩
  rcases ended with ⟨rfl, last⟩ | found
  · rw [List.length_nil] at counted
    omega
  · have markSize := found.length_pos
    have bound := found.within
    omega

def sampleRows : Source :=
  ⟨"ab\ncd".toList, none⟩

theorem last_sampleRow_underlined :
    sampleRows.content[3]? = some 'c' ∧ ('c' ≠ '\r' ∧ 'c' ≠ '\n') ∧ (1 : Int) ≤ 10 ∧
      1 ≤ caretCount (sampleRows.diagnostic 3 "m" 10).toList ∧
      caretCount (sampleRows.diagnostic 3 "m" 10).toList ≤ (restOfLine sampleRows.content 3).length := by
  have here : sampleRows.content[3]? = some 'c' := by decide
  have inLine : 'c' ≠ '\r' ∧ 'c' ≠ '\n' := by decide
  have positive : (1 : Int) ≤ 10 := by decide
  obtain ⟨drawn, _, _, _, within⟩ := carets_cut_behind_break sampleRows "m" here inLine positive
  exact ⟨here, inLine, positive, drawn, within.mpr (.inr (by decide))⟩

theorem first_sampleRow_overrun :
    ¬ ∀ (source : Source) (message : String) (offset : Nat) (char : Char) (width : Int),
      source.content[offset]? = some char → char ≠ '\r' ∧ char ≠ '\n' → 1 ≤ width →
      1 ≤ caretCount (source.diagnostic offset message width).toList ∧
      caretCount (source.diagnostic offset message width).toList ≤
        (restOfLine source.content offset).length := by
  intro fits
  have claimed := (fits sampleRows "m" 0 'a' 10 (by decide) (by decide) (by decide)).2
  exact absurd claimed (by decide)

end Source

end Descent
