import Descent.Text.CharClass
import Descent.Text.LineBreak

/-!
Showing a person where in a text something is. An offset becomes a row and a column, and a
diagnostic shows the line with carets under the spot.
-/

namespace Descent

/-- A picture of where something is in a line: the line after a margin, without the blanks at its
end, and carets below. A negative start counts from the end of the line. There is always at least
one caret, and otherwise none beyond the end of the line as it was given. -/
def underlined (line : List Char) (start width : Int) (margin caption : String) : String :=
  let before := line.take (if start < 0 then line.length + start else start).toNat
  let under := (margin.toList ++ before).map fun char => if char = '\t' then '\t' else ' '
  let carets := max 1 (min width (line.length - start))
  let shown := (line.reverse.dropWhile isBlank).reverse
  String.ofList (margin.toList ++ shown ++ '\n' :: under ++ List.replicate carets.toNat '^') ++
    " " ++ caption

/-- The element at an index, which counts from the end if it is negative. -/
def elementAt? (elements : List Nat) (index : Int) : Option Nat :=
  if 0 ≤ index then elements[index.toNat]?
  else if 0 ≤ elements.length + index then elements[(elements.length + index).toNat]?
  else none

structure Source where
  content : List Char
  filename : Option String

namespace Source

/-- Where each row begins, and after these where the text ends. -/
def boundaries (source : Source) : List Nat :=
  0 :: LineBreak.ends source.content ++ [source.content.length]

/-- The row is the number of rows that begin at the offset or before it, and the column is counted
from where that row begins. A negative offset lies in no row: its column is counted from the end of
the text. -/
def rowColumn (source : Source) (offset : Int) : Nat × Int :=
  let boundaries := source.boundaries
  match boundaries.dropLast.countP fun (start : Nat) => start ≤ offset with
  | 0 => (0, offset - source.content.length)
  | before + 1 => (before + 1, offset - (boundaries.getD before 0 : Nat))

/-- The text of a row with its line break. Row zero is empty, and rows below zero count from the
end. -/
def line? (source : Source) (row : Int) : Option (List Char) :=
  match elementAt? source.boundaries (row - 1), elementAt? source.boundaries row with
  | some start, some stop => some ((source.content.drop start).take (stop - start))
  | _, _ => none

def diagnostic (source : Source) (offset : Int) (message : String) (width : Int) : String :=
  let (row, column) := source.rowColumn offset
  let place := match source.filename with
    | some name => name ++ ":"
    | none => "At"
  let line := (source.line? row).getD []
  place ++ " line " ++ toString row ++ ", column " ++ toString (column + 1) ++ ": " ++ message ++
    "\n" ++ underlined line column width " >>> " "near here"

end Source

end Descent
