import Descent.Text.Quoted

/-!
A view is a window onto a text. Deriving one view from another copies no text: both look at the same
buffer, and only the bounds differ.
-/

namespace Descent

/-- The part of `buffer` from `start` up to, and not including, `stop`. -/
structure View where
  buffer : Array Char
  start : Nat
  stop : Nat
  start_le_stop : start ≤ stop
  stop_le_size : stop ≤ buffer.size

namespace View

def ofChars (content : List Char) : View :=
  ⟨content.toArray, 0, content.toArray.size, Nat.zero_le _, Nat.le_refl _⟩

def of (text : String) : View :=
  ofChars text.toList

def length (view : View) : Nat :=
  view.stop - view.start

/-- Where the view begins, counted from the start of the buffer. -/
def offset (view : View) : Nat :=
  view.start

def isEmpty (view : View) : Bool :=
  view.length == 0

def isNotEmpty (view : View) : Bool :=
  view.length != 0

def chars (view : View) : List Char :=
  (view.buffer.extract view.start view.stop).toList

def text (view : View) : String :=
  String.ofList view.chars

/-- The character at an index counted from the start of the view. -/
def get? (view : View) (index : Int) : Option Char :=
  if 0 ≤ index ∧ index < view.length then view.buffer[view.start + index.toNat]? else none

/-- Skips characters at the front: none for a negative count, all if there are not so many. -/
def drop (view : View) (count : Int) : View :=
  { view with
    start := min (view.start + count.toNat) view.stop
    start_le_stop := Nat.min_le_right _ _ }

/-- The first index from `index` on whose character fails the test, or else `stop`. -/
def scan (buffer : Array Char) (stop : Nat) (bound : stop ≤ buffer.size) (test : Char → Bool)
    (index : Nat) : Nat :=
  if below : index < stop then
    if test buffer[index] then scan buffer stop bound test (index + 1) else index
  else index
termination_by stop - index

theorem le_scan (buffer : Array Char) (stop : Nat) (bound : stop ≤ buffer.size)
    (test : Char → Bool) (index : Nat) : index ≤ scan buffer stop bound test index := by
  fun_induction scan buffer stop bound test index with
  | case1 index below passes ih => omega
  | case2 index below fails => exact Nat.le_refl _
  | case3 index beyond => exact Nat.le_refl _

theorem scan_le (buffer : Array Char) (stop : Nat) (bound : stop ≤ buffer.size)
    (test : Char → Bool) (index : Nat) (start : index ≤ stop) :
    scan buffer stop bound test index ≤ stop := by
  fun_induction scan buffer stop bound test index with
  | case1 index below passes ih => exact ih below
  | case2 index below fails => exact start
  | case3 index beyond => exact start

/-- The longest part at the front whose characters all pass the test, and what follows it. -/
def span (view : View) (test : Char → Bool) : View × View :=
  let middle := scan view.buffer view.stop view.stop_le_size test view.start
  have start_le_middle : view.start ≤ middle := le_scan ..
  have middle_le_stop : middle ≤ view.stop := scan_le _ _ _ _ _ view.start_le_stop
  (⟨view.buffer, view.start, middle, start_le_middle,
      Nat.le_trans middle_le_stop view.stop_le_size⟩,
    ⟨view.buffer, middle, view.stop, middle_le_stop, view.stop_le_size⟩)

/-- Views are the same if they show the same part of equal buffers. Where an empty view lies makes
no difference. -/
def same (first second : View) : Bool :=
  ((first.isEmpty && second.isEmpty) ||
    (first.start == second.start && first.stop == second.stop)) &&
  first.buffer == second.buffer

def describe (view : View) : String :=
  "StringView(" ++ quoted view.text ++ ", at=" ++ toString view.offset ++ ")"

end View

end Descent
