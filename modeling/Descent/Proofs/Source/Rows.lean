import Descent.Diagnostic
import Descent.Proofs.Text.Lines

/-!
The rows of a source are the lines of its text, each with its break, and an offset in the text is a
row and a column in it.
-/

namespace Descent

open LineBreak

namespace Source

variable (source : Source) {row start : Nat}

def starts : List Nat :=
  0 :: ends source.content

def stop (row : Nat) : Nat :=
  source.starts[row + 1]?.getD source.content.length

def lines : List (List Char) :=
  pieces source.content source.boundaries

theorem boundaries_eq : source.boundaries = source.starts ++ [source.content.length] :=
  rfl

theorem mem_starts_iff {stop : Nat} : stop ∈ source.starts ↔
    stop = 0 ∨ ∃ place mark, BreakAt source.content place mark ∧ place + mark.length = stop := by
  rw [starts, List.mem_cons, mem_ends_iff]

theorem starts_ascending : source.starts.Pairwise (· < ·) := by
  refine List.pairwise_cons.mpr ⟨fun stop inside => ?_, ends_ascending _⟩
  obtain ⟨place, mark, found, rfl⟩ := mem_ends_iff.mp inside
  have size := found.length_pos
  omega

variable {source}

theorem le_length_of_mem {stop : Nat} (inside : stop ∈ source.starts) :
    stop ≤ source.content.length := by
  rcases source.mem_starts_iff.mp inside with rfl | ⟨place, mark, found, rfl⟩
  · exact Nat.zero_le _
  · exact found.within

theorem boundaries_ordered : source.boundaries.Pairwise (· ≤ ·) := by
  rw [boundaries_eq, List.pairwise_append]
  refine ⟨source.starts_ascending.imp Nat.le_of_lt, List.pairwise_singleton _ _, ?_⟩
  intro start inside stop single
  rw [List.mem_singleton.mp single]
  exact le_length_of_mem inside

theorem length_starts : source.starts.length = (breaks source.content).ncard + 1 := by
  rw [ncard_breaks, starts, List.length_cons]

theorem length_boundaries : source.boundaries.length = source.starts.length + 1 := by
  rw [boundaries_eq, List.length_append, List.length_singleton]

theorem length_lines : source.lines.length = source.starts.length := by
  rw [lines, length_pieces, length_boundaries, Nat.add_sub_cancel]

theorem boundaries_getElem?_of_starts (here : source.starts[row]? = some start) :
    source.boundaries[row]? = some start := by
  rw [boundaries_eq, List.getElem?_append_left (List.getElem?_eq_some_iff.mp here).1, here]

theorem boundaries_getElem?_succ (here : source.starts[row]? = some start) :
    source.boundaries[row + 1]? = some (source.stop row) := by
  have bound := (List.getElem?_eq_some_iff.mp here).1
  rw [boundaries_eq, stop]
  rcases Nat.lt_or_ge (row + 1) source.starts.length with next | last
  · rw [List.getElem?_append_left next, List.getElem?_eq_getElem next, Option.getD_some]
  · have equal : row + 1 = source.starts.length := by omega
    rw [List.getElem?_append_right last, List.getElem?_eq_none last, Option.getD_none, equal,
      Nat.sub_self]
    rfl

theorem lines_getElem? (here : source.starts[row]? = some start) :
    source.lines[row]? = some (between source.content start (source.stop row)) :=
  getElem?_pieces (boundaries_getElem?_of_starts here) (boundaries_getElem?_succ here)

theorem stop_le (here : source.starts[row]? = some start) :
    start ≤ source.stop row ∧ source.stop row ≤ source.content.length := by
  rw [stop]
  cases next : source.starts[row + 1]? with
  | none => exact ⟨le_length_of_mem (List.mem_of_getElem? here), Nat.le_refl _⟩
  | some later =>
    have order := (start_lt_iff source.starts_ascending here next).mpr (Nat.lt_succ_self row)
    exact ⟨Nat.le_of_lt order, le_length_of_mem (List.mem_of_getElem? next)⟩

theorem flatten_take_lines (here : source.starts[row]? = some start) :
    (source.lines.take row).flatten = source.content.take start :=
  flatten_take_pieces boundaries_ordered rfl (boundaries_getElem?_of_starts here)

theorem flatten_lines : source.lines.flatten = source.content := by
  have last : source.boundaries[source.starts.length]? = some source.content.length := by
    rw [boundaries_eq, List.getElem?_append_right (Nat.le_refl _), Nat.sub_self]
    rfl
  have whole : (source.lines.take source.starts.length).flatten = between source.content 0 _ :=
    flatten_take_pieces boundaries_ordered rfl last
  rw [List.take_of_length_le (Nat.le_of_eq length_lines)] at whole
  rw [whole, between, List.drop_zero, Nat.sub_zero, List.take_length]

theorem endsInBreak_of_next (here : source.starts[row]? = some start) {next : Nat}
    (behind : source.starts[row + 1]? = some next) :
    EndsInBreak source.content start (between source.content start (source.stop row)) := by
  have later := (start_lt_iff source.starts_ascending here behind).mpr (Nat.lt_succ_self row)
  obtain first | ⟨place, mark, found, stop⟩ :=
    source.mem_starts_iff.mp (List.mem_of_getElem? behind)
  · omega
  have upper : source.stop row = place + mark.length := by
    rw [Source.stop, behind, Option.getD_some, stop]
  have size := found.length_pos
  -- The row begins at the beginning of the text or behind a break, so not inside this break.
  have lower : start ≤ place := by
    rcases source.mem_starts_iff.mp (List.mem_of_getElem? here) with
      rfl | ⟨other, second, before, rfl⟩
    · exact Nat.zero_le _
    · rcases Nat.le_total other place with order | order
      · rcases before.apart found order with ⟨rfl, rfl⟩ | apart
        · omega
        · exact apart
      · rcases found.apart before order with ⟨rfl, rfl⟩ | apart
        · omega
        · omega
  refine ⟨between source.content start place, mark, ?_, ?_, ?_⟩
  · rw [upper, ← between_append lower (Nat.le_add_right _ _), found.between_eq]
  · have bound : place ≤ source.content.length := Nat.le_of_add_right_le found.within
    rwa [length_between bound, Nat.add_sub_cancel' lower]
  · refine unbroken_between fun other second foundToo behindStart => ?_
    have inside : other + second.length ∈ source.starts :=
      source.mem_starts_iff.mpr (.inr ⟨other, second, foundToo, rfl⟩)
    have reached := next_le_of_mem source.starts_ascending here behind inside behindStart
    rcases Nat.lt_or_ge other place with before | ordered
    · rcases foundToo.apart found (Nat.le_of_lt before) with ⟨rfl, _⟩ | apart
      · exact Nat.le_refl _
      · omega
    · exact ordered

theorem unbroken_of_last (here : source.starts[row]? = some start)
    (last : source.starts[row + 1]? = none) :
    Unbroken (between source.content start (source.stop row)) := by
  refine unbroken_between fun place mark found behind => ?_
  have inside : place + mark.length ∈ source.starts :=
    source.mem_starts_iff.mpr (.inr ⟨place, mark, found, rfl⟩)
  have order := le_last_of_mem source.starts_ascending here last inside
  omega

theorem rowColumn_of_between {offset : Nat} (here : source.starts[row]? = some start)
    (reached : start ≤ offset)
    (before : ∀ next, source.starts[row + 1]? = some next → offset < next) :
    source.rowColumn offset = (row + 1, (offset : Int) - start) := by
  have counted : (source.boundaries.dropLast.countP fun (begun : Nat) => begun ≤ (offset : Int)) =
      row + 1 := by
    rw [boundaries_eq, List.dropLast_concat]
    exact countP_eq_row source.starts_ascending here (Int.ofNat_le.mpr reached) fun next behind =>
      Int.ofNat_lt.mpr (before next behind)
  rw [rowColumn, counted]
  simp only [List.getD_eq_getElem?_getD, boundaries_getElem?_of_starts here, Option.getD_some]

theorem stop_of_last (last : row + 1 = source.starts.length) :
    source.stop row = source.content.length := by
  rw [Source.stop, List.getElem?_eq_none (Nat.le_of_eq last.symm), Option.getD_none]

/-- Every offset of the text lies in a row, and the end of the text in the last one. -/
theorem exists_row_of_le {offset : Nat} (bound : offset ≤ source.content.length) :
    ∃ row start, source.starts[row]? = some start ∧ start ≤ offset ∧
      (offset < source.stop row ∨
        row + 1 = source.starts.length ∧ offset = source.content.length) ∧
      source.rowColumn offset = (row + 1, (offset : Int) - start) := by
  obtain ⟨row, start, here, reached, before⟩ := exists_row source.starts_ascending rfl offset.zero_le
  refine ⟨row, start, here, reached, ?_, rowColumn_of_between here reached before⟩
  cases next : source.starts[row + 1]? with
  | none =>
    have inside := (List.getElem?_eq_some_iff.mp here).1
    have beyond := List.getElem?_eq_none_iff.mp next
    have last : row + 1 = source.starts.length := by omega
    rw [stop_of_last last]
    exact (Nat.lt_or_eq_of_le bound).imp_right fun ended => ⟨last, ended⟩
  | some later =>
    refine .inl ?_
    rw [Source.stop, next]
    exact before later next

theorem elementAt?_natCast (elements : List Nat) (index : Nat) :
    elementAt? elements index = elements[index]? := by
  simp [elementAt?]

theorem elementAt?_of_neg (elements : List Nat) {index : Int} (negative : index < 0)
    (inside : 0 ≤ elements.length + index) :
    elementAt? elements index = elementAt? elements (elements.length + index) := by
  rw [elementAt?, if_neg (by omega), if_pos inside, elementAt?, if_pos inside]

theorem elementAt?_eq_none_iff (elements : List Nat) (index : Int) :
    elementAt? elements index = none ↔
      (elements.length : Int) ≤ index ∨ index < -elements.length := by
  rw [elementAt?]
  split
  · rw [List.getElem?_eq_none_iff]
    omega
  · split
    · rw [List.getElem?_eq_none_iff]
      omega
    · simp only [true_iff]
      omega

theorem line?_of_starts (here : source.starts[row]? = some start) :
    source.line? (row + 1) = some (between source.content start (source.stop row)) := by
  have behind := elementAt?_natCast source.boundaries (row + 1)
  rw [Int.natCast_add, Int.natCast_one] at behind
  rw [line?, Int.add_sub_cancel, elementAt?_natCast, boundaries_getElem?_of_starts here, behind,
    boundaries_getElem?_succ here]
  rfl

theorem line?_eq_none_iff (source : Source) (row : Int) : source.line? row = none ↔
    (source.starts.length : Int) < row ∨ row < -source.starts.length := by
  have first := elementAt?_eq_none_iff source.boundaries (row - 1)
  have second := elementAt?_eq_none_iff source.boundaries row
  have size := source.length_boundaries
  rw [line?]
  split
  · rename_i start stop here behind
    rw [here] at first
    rw [behind] at second
    simp only [reduceCtorEq, false_iff] at first second ⊢
    omega
  · rename_i missing
    simp only [true_iff]
    by_contra inside
    cases here : elementAt? source.boundaries (row - 1) with
    | none =>
      have := first.mp here
      omega
    | some start =>
      cases behind : elementAt? source.boundaries row with
      | none =>
        have := second.mp behind
        omega
      | some stop => exact missing start stop here behind

theorem line?_of_neg (source : Source) {row : Int} (negative : row < 0)
    (inside : -(source.starts.length : Int) ≤ row) :
    source.line? row = source.line? (source.starts.length + 1 + row) := by
  have size := source.length_boundaries
  have before : row - 1 < 0 := by omega
  have place : (source.boundaries.length : Int) + (row - 1) = source.starts.length + 1 + row - 1 := by
    omega
  have next : (source.boundaries.length : Int) + row = source.starts.length + 1 + row := by omega
  rw [line?, elementAt?_of_neg source.boundaries negative (by omega), next,
    elementAt?_of_neg source.boundaries before (by omega), place]
  rfl

theorem line?_zero (source : Source) : source.line? 0 = some [] := by
  have size := source.length_boundaries
  have place : (source.boundaries.length : Int) + (0 - 1) = source.starts.length := by omega
  have last : elementAt? source.boundaries (0 - 1) = some source.content.length := by
    rw [elementAt?_of_neg _ (by omega) (by omega), place, elementAt?_natCast, boundaries_eq,
      List.getElem?_append_right (Nat.le_refl _), Nat.sub_self]
    rfl
  have first : elementAt? source.boundaries 0 = some 0 := elementAt?_natCast source.boundaries 0
  rw [line?, last, first]
  simp

theorem length_flatten_take_lines (here : source.starts[row]? = some start) :
    (source.lines.take row).flatten.length = start := by
  have bound := le_length_of_mem (List.mem_of_getElem? here)
  rw [flatten_take_lines here, List.length_take, Nat.min_eq_left bound]

theorem starts_of_lines {line : List Char} (inside : source.lines[row]? = some line) :
    ∃ start, source.starts[row]? = some start ∧
      line = between source.content start (source.stop row) := by
  have bound := (List.getElem?_eq_some_iff.mp inside).1
  rw [length_lines] at bound
  have here := List.getElem?_eq_getElem bound
  rw [lines_getElem? here] at inside
  exact ⟨_, here, (Option.some.inj inside).symm⟩

structure Located (source : Source) (lines : List (List Char)) (offset row column : Nat)
    (text : List Char) : Prop where
  present : lines[row]? = some text
  place : source.rowColumn offset = (row + 1, (column : Int))
  total : offset = (lines.take row).flatten.length + column
  within : offset < source.content.length →
    column < text.length ∧ source.content[offset]? = text[column]?
  atEnd : offset = source.content.length → row + 1 = lines.length ∧ column = text.length

/-- The lines are the rows of the source in their order, and the offsets of the text are the places in
them. A row ends with its break, but for the last one, which has none. -/
structure LaidOut (source : Source) (lines : List (List Char)) : Prop where
  count : lines.length = (breaks source.content).ncard + 1
  rows : ∀ row < lines.length, source.line? (row + 1) = lines[row]?
  whole : lines.flatten = source.content
  broken : ∀ row line, lines[row]? = some line → row + 1 < lines.length →
    EndsInBreak source.content (lines.take row).flatten.length line
  last : ∀ row line, lines[row]? = some line → row + 1 = lines.length → Unbroken line
  located : ∀ offset ≤ source.content.length, ∃ row column line,
    source.Located lines offset row column line
  placed : ∀ row column line, lines[row]? = some line →
    column < line.length ∨ row + 1 = lines.length ∧ column = line.length →
    source.rowColumn ((lines.take row).flatten.length + column : Nat) = (row + 1, (column : Int))
  ascending : ∀ first second : Nat, first < second → second ≤ source.content.length →
    Prod.Lex (· < ·) (· < ·) (source.rowColumn first) (source.rowColumn second)
  missing : ∀ row : Int, source.line? row = none ↔ (lines.length : Int) < row ∨ row < -lines.length
  zeroth : source.line? 0 = some []
  fromEnd : ∀ back : Nat, 1 ≤ back → back ≤ lines.length →
    source.line? (-back) = source.line? (lines.length + 1 - back)

theorem located_of_le {offset : Nat} (bound : offset ≤ source.content.length) :
    ∃ row column line, source.Located source.lines offset row column line := by
  obtain ⟨row, start, here, reached, inside, place⟩ := exists_row_of_le bound
  have upper := (stop_le here).2
  have size : (between source.content start (source.stop row)).length = source.stop row - start :=
    length_between upper
  refine ⟨row, offset - start, _, lines_getElem? here, ?_, ?_, fun before => ?_, fun ended => ?_⟩
  · have column : (offset : Int) - start = ((offset - start : Nat) : Int) := by omega
    rw [place, column]
  · rw [length_flatten_take_lines here]
    omega
  · have below : offset < source.stop row := inside.resolve_right fun ended => by omega
    have joined : start + (offset - start) = offset := by omega
    refine ⟨by omega, ?_⟩
    rw [getElem?_between (by omega), joined]
  · obtain ⟨last, _⟩ := inside.resolve_left (by omega)
    have ends := stop_of_last last
    exact ⟨last.trans length_lines.symm, by omega⟩

theorem rowColumn_of_lines {column : Nat} {line : List Char}
    (present : source.lines[row]? = some line)
    (inside : column < line.length ∨ row + 1 = source.lines.length ∧ column = line.length) :
    source.rowColumn ((source.lines.take row).flatten.length + column : Nat) =
      (row + 1, (column : Int)) := by
  obtain ⟨start, here, rfl⟩ := starts_of_lines present
  have size : (between source.content start (source.stop row)).length = source.stop row - start :=
    length_between (stop_le here).2
  rw [length_lines] at inside
  rw [length_flatten_take_lines here, rowColumn_of_between here (Nat.le_add_right _ _)]
  · have difference : ((start + column : Nat) : Int) - start = column := by omega
    rw [difference]
  · intro next behind
    have upper : source.stop row = next := by rw [Source.stop, behind, Option.getD_some]
    have further := (List.getElem?_eq_some_iff.mp behind).1
    omega

theorem rowColumn_ascending {first second : Nat} (order : first < second)
    (bound : second ≤ source.content.length) :
    Prod.Lex (· < ·) (· < ·) (source.rowColumn first) (source.rowColumn second) := by
  obtain ⟨row, start, here, reached, _, place⟩ :=
    exists_row_of_le (Nat.le_trans (Nat.le_of_lt order) bound)
  obtain ⟨other, next, there, reachedToo, inside, placeToo⟩ := exists_row_of_le bound
  rw [place, placeToo]
  rcases Nat.lt_trichotomy row other with earlier | rfl | later
  · exact .left _ _ (Nat.succ_lt_succ earlier)
  · cases here.symm.trans there
    exact .right _ (by omega)
  · -- The second offset would lie before the row of the first one.
    have further : other + 1 < source.starts.length :=
      Nat.lt_of_le_of_lt later (List.getElem?_eq_some_iff.mp here).1
    have behind := List.getElem?_eq_getElem further
    have apart := next_le_of_mem source.starts_ascending there behind (List.mem_of_getElem? here)
      ((start_lt_iff source.starts_ascending there here).mpr later)
    have upper : source.stop other = source.starts[other + 1] := by
      rw [Source.stop, behind, Option.getD_some]
    omega

/-- The rows of a source lay out its text, with nothing lost and nothing in two rows. -/
theorem rows_lay_out_text (source : Source) : source.LaidOut source.lines where
  count := length_lines.trans length_starts
  rows := by
    intro row bound
    rw [length_lines] at bound
    have here := List.getElem?_eq_getElem bound
    rw [line?_of_starts here, lines_getElem? here]
  whole := flatten_lines
  broken := by
    intro row line present next
    obtain ⟨start, here, rfl⟩ := starts_of_lines present
    rw [length_lines] at next
    rw [length_flatten_take_lines here]
    exact endsInBreak_of_next here (List.getElem?_eq_getElem next)
  last := by
    intro row line present ended
    obtain ⟨start, here, rfl⟩ := starts_of_lines present
    rw [length_lines] at ended
    exact unbroken_of_last here (List.getElem?_eq_none (Nat.le_of_eq ended.symm))
  located := fun _ bound => located_of_le bound
  placed := fun _ _ _ present inside => rowColumn_of_lines present inside
  ascending := fun _ _ order bound => rowColumn_ascending order bound
  missing := by
    intro row
    rw [length_lines]
    exact line?_eq_none_iff source row
  zeroth := line?_zero source
  fromEnd := by
    intro back positive bound
    rw [length_lines] at bound ⊢
    rw [line?_of_neg source (by omega) (by omega), Int.sub_eq_add_neg]

example : (Source.mk "a\r\n\r\rb\n".toList none).lines =
    ["a\r\n".toList, "\r".toList, "\r".toList, "b\n".toList, []] := by
  decide

end Source

end Descent
