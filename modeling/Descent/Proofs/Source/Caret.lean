import Descent.Proofs.Json.Strict
import Descent.Proofs.Source.Rows
import Mathlib.Data.List.DropRight

/-!
A diagnostic is three lines: the place in words, the row that is meant, and carets under the character
that is meant.
-/

namespace Descent

open LineBreak

/-! Texts without breaks. -/

section Unbroken

variable {first second line : List Char}

theorem Unbroken.append (unbroken : Unbroken first) (unbrokenToo : Unbroken second) :
    Unbroken (first ++ second) := by
  intro char inside
  rcases List.mem_append.mp inside with early | late
  · exact unbroken char early
  · exact unbrokenToo char late

theorem Unbroken.of_subset (unbroken : Unbroken first) (subset : second ⊆ first) : Unbroken second :=
  fun char inside => unbroken char (subset inside)

theorem unbroken_toString (value : Nat) : Unbroken (toString value).toList := by
  intro char inside
  rw [Nat.toString_eq_repr, Nat.toList_repr] at inside
  have digit := Nat.isDigit_of_mem_toDigits (by omega) (by omega) inside
  constructor <;> rintro rfl <;> exact absurd digit (by decide)

/-- Without the blanks at its end, a line has no break. -/
theorem unbroken_rdropWhile {text : List Char} {start : Nat} (broken : EndsInBreak text start line) :
    Unbroken (line.rdropWhile isBlank) := by
  obtain ⟨body, mark, rfl, found, unbroken⟩ := broken
  have blank : ∀ char ∈ mark.reverse, isBlank char = true := by
    intro char inside
    rcases found.marked char (List.mem_reverse.mp inside) with rfl | rfl <;> decide
  have trimmed : (body ++ mark).rdropWhile isBlank = body.rdropWhile isBlank := by
    rw [List.rdropWhile, List.reverse_append, List.dropWhile_append_of_pos blank, List.rdropWhile]
  rw [trimmed]
  exact unbroken.of_subset (List.rdropWhile_prefix _ _).subset

theorem getElem?_rdropWhile {text : List Char} {column : Nat} {char : Char}
    (here : text[column]? = some char) (visible : isBlank char = false) :
    (text.rdropWhile isBlank)[column]? = some char := by
  have joined : text.rdropWhile isBlank ++ text.rtakeWhile isBlank = text :=
    List.rdropWhile_append_rtakeWhile
  rw [← joined] at here
  rcases Nat.lt_or_ge column (text.rdropWhile isBlank).length with inside | beyond
  · rwa [List.getElem?_append_left inside] at here
  · rw [List.getElem?_append_right beyond] at here
    have blank := List.mem_rtakeWhile_imp (List.mem_of_getElem? here)
    rw [visible] at blank
    cases blank

end Unbroken

def padding (text : List Char) : List Char :=
  text.map fun char => if char = '\t' then '\t' else ' '

def visualColumn (tab : Nat) (text : List Char) : Nat :=
  text.foldl (fun column char => if char = '\t' then (column / tab + 1) * tab else column + 1) 0

theorem visualColumn_padding (tab : Nat) (text : List Char) :
    visualColumn tab (padding text) = visualColumn tab text := by
  rw [visualColumn, visualColumn, padding, List.foldl_map]
  congr 1
  funext column char
  split <;> simp

theorem unbroken_padding (text : List Char) : Unbroken (padding text) := by
  intro char inside
  obtain ⟨before, _, rfl⟩ := List.mem_map.mp inside
  split <;> decide

theorem toList_underlined (line : List Char) (column : Nat) (width : Int) (margin caption : String) :
    (underlined line column width margin caption).toList =
      (margin.toList ++ line.rdropWhile isBlank) ++ '\n' ::
        (padding (margin.toList ++ line.take column) ++
          List.replicate (max 1 (min width (line.length - column))).toNat '^' ++
          " ".toList ++ caption.toList) := by
  have nonneg : ¬(column : Int) < 0 := by omega
  simp only [underlined, if_neg nonneg, Int.toNat_natCast, String.toList_append,
    String.toList_ofList, List.append_assoc, List.cons_append, padding, List.rdropWhile]

namespace Source

def label (source : Source) : String :=
  match source.filename with
  | some name => name ++ ":"
  | none => "At"

def reference (source : Source) (row column : Nat) (message : String) : List Char :=
  (source.label ++ " line " ++ toString row ++ ", column " ++ toString (column + 1) ++ ": " ++
    message).toList

variable {source : Source} {offset row column : Nat} {message : String} {width : Int}
variable {line : List Char}

theorem unbroken_reference (source : Source) (row column : Nat) (plain : Unbroken message.toList)
    (plainName : ∀ name, source.filename = some name → Unbroken name.toList) :
    Unbroken (source.reference row column message) := by
  have label : Unbroken source.label.toList := by
    rw [label]
    split
    · rename_i name named
      rw [String.toList_append]
      exact (plainName name named).append (by decide)
    · decide
  simp only [reference, String.toList_append]
  exact (((((label.append (by decide)).append (unbroken_toString row)).append (by decide)).append
    (unbroken_toString (column + 1))).append (by decide)).append plain

theorem unbroken_underline (text : List Char) (carets : Nat) :
    Unbroken (padding text ++ List.replicate carets '^' ++ " near here".toList) := by
  refine ((unbroken_padding text).append ?_).append (by decide)
  intro char member
  rw [List.eq_of_mem_replicate member]
  decide

/-- A row without the blanks at its end has no break. -/
theorem unbroken_of_present (present : source.lines[row]? = some line) :
    Unbroken (line.rdropWhile isBlank) := by
  obtain ⟨start, here, rfl⟩ := starts_of_lines present
  cases next : source.starts[row + 1]? with
  | none =>
    exact (unbroken_of_last here next).of_subset (List.rdropWhile_prefix _ _).subset
  | some later => exact unbroken_rdropWhile (endsInBreak_of_next here next)

/-- Three lines about an offset. The first one names its row and, counted from one, its column. The
second one shows the row behind a margin of five characters, and the third one has its carets at the
column: it begins with as many blanks, but with tabs where the second line has tabs. -/
structure PointsAt (source : Source) (offset : Nat) (message : String) (width : Int)
    (row column : Nat) (text : List Char) (first second third : List Char) : Prop where
  place : source.rowColumn offset = (row, (column : Int))
  present : source.line? row = some text
  whole : (source.diagnostic offset message width).toList = first ++ '\n' :: (second ++ '\n' :: third)
  unbroken : Unbroken first ∧ Unbroken second ∧ Unbroken third
  named : first = source.reference row column message
  shown : second = " >>> ".toList ++ text.rdropWhile isBlank
  margin : (padding ((" >>> ".toList ++ text).take (5 + column))).length = 5 + column
  pointed : ∃ carets, 0 < carets ∧
    third = padding ((" >>> ".toList ++ text).take (5 + column)) ++ List.replicate carets '^' ++
      " near here".toList
  aligned : ∀ tab, visualColumn tab (third.take (5 + column)) =
    visualColumn tab ((" >>> ".toList ++ text).take (5 + column))
  visible : column ≤ (text.rdropWhile isBlank).length →
    second.take (5 + column) = (" >>> ".toList ++ text).take (5 + column)
  above : ∀ char, source.content[offset]? = some char → isBlank char = false →
    second[5 + column]? = some char

theorem toList_diagnostic (place : source.rowColumn offset = (row, (column : Int)))
    (present : source.line? row = some line) :
    (source.diagnostic offset message width).toList = source.reference row column message ++
      '\n' :: (" >>> ".toList ++ line.rdropWhile isBlank ++ '\n' ::
        (padding (" >>> ".toList ++ line.take column) ++
          List.replicate (max 1 (min width (line.length - column))).toNat '^' ++
          " near here".toList)) := by
  have next : toString ((column : Int) + 1) = toString (column + 1) := rfl
  have caption : " near here".toList = " ".toList ++ "near here".toList := by decide
  have feed : "\n".toList = ['\n'] := by decide
  cases named : source.filename <;>
    simp only [diagnostic, place, present, Option.getD_some, String.toList_append, next,
      toList_underlined, reference, label, named, caption, feed, List.append_assoc,
      List.cons_append, List.nil_append]

theorem pointsAt_of_located {text : List Char} (width : Int)
    (located : source.Located source.lines offset row column text)
    (bound : offset ≤ source.content.length) (plain : Unbroken message.toList)
    (plainName : ∀ name, source.filename = some name → Unbroken name.toList) :
    ∃ first second third,
      source.PointsAt offset message width (row + 1) column text first second third := by
  have inside : column ≤ text.length := by
    rcases Nat.lt_or_eq_of_le bound with before | ended
    · exact Nat.le_of_lt (located.within before).1
    · exact Nat.le_of_eq (located.atEnd ended).2
  have present : source.line? ((row + 1 : Nat) : Int) = some text := by
    obtain ⟨start, here, rfl⟩ := starts_of_lines located.present
    exact line?_of_starts here
  have five : " >>> ".toList.length = 5 := by decide
  have cut : (" >>> ".toList ++ text).take (5 + column) = " >>> ".toList ++ text.take column := by
    rw [← five, List.take_length_add_append]
  have size : (padding ((" >>> ".toList ++ text).take (5 + column))).length = 5 + column := by
    rw [padding, List.length_map, List.length_take, List.length_append, five]
    omega
  have whole : (source.diagnostic offset message width).toList = _ :=
    toList_diagnostic located.place present
  rw [← cut] at whole
  refine ⟨_, _, _, located.place, present, whole, ⟨?_, ?_, ?_⟩, rfl, rfl, size, ⟨_, ?_, rfl⟩, ?_, ?_, ?_⟩
  · exact unbroken_reference source (row + 1) column plain plainName
  · exact Unbroken.append (by decide) (unbroken_of_present located.present)
  · exact unbroken_underline _ _
  · omega
  · intro tab
    rw [List.append_assoc, List.take_append_of_le_length (Nat.le_of_eq size.symm),
      List.take_of_length_le (Nat.le_of_eq size), visualColumn_padding]
  · intro reached
    have joined : text.rdropWhile isBlank ++ text.rtakeWhile isBlank = text :=
      List.rdropWhile_append_rtakeWhile
    have same := congrArg (List.take column) joined
    rw [List.take_append_of_le_length reached] at same
    rw [cut, ← five, List.take_length_add_append, same]
  · intro char here visible
    have before := (List.getElem?_eq_some_iff.mp here).1
    have there : text[column]? = some char := (located.within before).2.symm.trans here
    have place : 5 + column - " >>> ".toList.length = column := by omega
    rw [List.getElem?_append_right (by omega), place]
    exact getElem?_rdropWhile there visible

/-- A diagnostic points at its offset. At what a strict reading reports, this is a character that is
shown above the first caret. -/
theorem diagnostic_points_at_offset (source : Source) (message : String) (width : Int)
    (plain : Unbroken message.toList)
    (plainName : ∀ name, source.filename = some name → Unbroken name.toList) :
    (∀ offset ≤ source.content.length, ∃ row column text first second third,
      source.PointsAt offset message width row column text first second third) ∧
    ∀ position, Json.read true (String.ofList source.content) = .error (.trailing position) →
      position < source.content.length ∧ ∃ row column text first second third char,
        source.PointsAt position message width row column text first second third ∧
        source.content[position]? = some char ∧ isBlank char = false ∧
        second[5 + column]? = some char := by
  have points : ∀ offset ≤ source.content.length, ∃ row column text first second third,
      source.PointsAt offset message width row column text first second third := by
    intro offset bound
    obtain ⟨row, column, text, located⟩ := located_of_le bound
    exact ⟨row + 1, column, text, pointsAt_of_located width located bound plain plainName⟩
  refine ⟨points, fun position failed => ?_⟩
  obtain ⟨found, char, visible, report⟩ := Json.exists_reported failed
  have here := report.present
  rw [String.toList_ofList] at here
  have before := (List.getElem?_eq_some_iff.mp here).1
  obtain ⟨row, column, text, first, second, third, pointed⟩ := points position (Nat.le_of_lt before)
  exact ⟨before, row, column, text, first, second, third, char, pointed, here, visible,
    pointed.above char here visible⟩

def sampleSource : Source :=
  ⟨"[1]\r\n\t oops \r".toList, some "a.json"⟩

theorem sampleSource_points_at_rest :
    Json.read true (String.ofList sampleSource.content) = .error (.trailing 7) ∧
      ∃ row column text first second third char,
        sampleSource.PointsAt 7 "look" 2 row column text first second third ∧
        sampleSource.content[7]? = some char ∧ isBlank char = false ∧
        second[5 + column]? = some char := by
  have failed : Json.read true (String.ofList sampleSource.content) = .error (.trailing 7) := by cbv
  have plainName : ∀ name, sampleSource.filename = some name → Unbroken name.toList := by
    rintro _ ⟨⟩
    decide
  refine ⟨failed, ?_⟩
  exact ((diagnostic_points_at_offset sampleSource "look" 2 (by decide) plainName).2 7 failed).2

end Source

end Descent
