import Descent.Proofs.View.Split

/-!
A view that is reached from a text by dropping and spanning, in whatever order, behaves as a slice
of the text that knows where it begins.
-/

namespace Descent

inductive View.Move where
  | drop (count : Int)
  | taken (test : Char → Bool)
  | left (test : Char → Bool)

structure Slice where
  chars : List Char
  offset : Nat

namespace Slice

def of (text : String) : Slice :=
  ⟨text.toList, 0⟩

def move (slice : Slice) : View.Move → Slice
  | .drop count =>
    ⟨slice.chars.drop count.toNat, slice.offset + min count.toNat slice.chars.length⟩
  | .taken test => ⟨slice.chars.takeWhile test, slice.offset⟩
  | .left test =>
    ⟨slice.chars.dropWhile test, slice.offset + (slice.chars.takeWhile test).length⟩

end Slice

structure LongestPrefix (test : Char → Bool) (chars word rest : List Char) : Prop where
  joined : word ++ rest = chars
  passes : ∀ char ∈ word, test char = true
  longest : ∀ other, other <+: chars → (∀ char ∈ other, test char = true) → other <+: word

theorem longestPrefix_takeWhile (test : Char → Bool) (chars : List Char) :
    LongestPrefix test chars (chars.takeWhile test) (chars.dropWhile test) := by
  constructor
  · exact List.takeWhile_append_dropWhile
  · exact List.all_eq_true.mp List.all_takeWhile
  · rintro other ⟨more, rfl⟩ passes
    rw [List.takeWhile_append_of_pos passes]
    exact List.prefix_append other _

namespace View

variable (view : View)

def move : Move → View
  | .drop count => view.drop count
  | .taken test => (view.span test).1
  | .left test => (view.span test).2

def slice : Slice :=
  ⟨view.chars, view.offset⟩

theorem slice_of (text : String) : (of text).slice = Slice.of text := by
  rw [slice, of, chars_ofChars]
  rfl

theorem slice_move (move : Move) : (view.move move).slice = view.slice.move move := by
  cases move with
  | drop count => simp [View.move, slice, Slice.move, chars_drop, offset_drop, length_chars]
  | taken test =>
    rw [View.move, slice, chars_span_fst]
    rfl
  | left test => simp [View.move, slice, Slice.move, chars_span_snd, offset_span_snd]

theorem buffer_move (move : Move) : (view.move move).buffer = view.buffer := by
  cases move <;> rfl

theorem slice_foldl_move (moves : List Move) :
    (moves.foldl move view).slice = moves.foldl Slice.move view.slice := by
  induction moves generalizing view with
  | nil => rfl
  | cons move moves ih =>
    simp only [List.foldl_cons]
    rw [ih, slice_move]

theorem buffer_foldl_move (moves : List Move) : (moves.foldl move view).buffer = view.buffer := by
  induction moves generalizing view with
  | nil => rfl
  | cons move moves ih =>
    simp only [List.foldl_cons]
    rw [ih, buffer_move]

theorem drop_drop (first second : Nat) : (view.drop first).drop second = view.drop (first + second) := by
  refine eq_of_bounds rfl ?_ rfl
  simp only [drop]
  omega

/-- All that can be asked of a view has the answer that its slice of the text gives. The view ends
before `stop`, so an empty one has its last character at `stop - 1`, before the first. -/
structure ShowsSlice (text : String) (view : View) : Prop where
  bounds : view.start ≤ view.stop ∧ view.stop ≤ text.length ∧ view.length = view.stop - view.start
  value : view.text.toList = (text.toList.drop view.offset).take view.length
  inside : ∀ (index : Nat) (below : index < view.text.toList.length),
    view.get? index = some view.text.toList[index]
  outside : ∀ index : Int, ¬(0 ≤ index ∧ index < view.length) → view.get? index = none
  sizes : view.length = view.text.length ∧ view.isEmpty = (view.text.length == 0) ∧
    view.isNotEmpty = (view.text.length != 0)
  dropped : ∀ count, (view.drop count).text.toList = view.text.toList.drop count.toNat ∧
    (view.drop count).offset = view.offset + min count.toNat view.length
  spanned : ∀ test, LongestPrefix test view.text.toList (view.span test).1.text.toList
      (view.span test).2.text.toList ∧
    (view.span test).1.text ++ (view.span test).2.text = view.text ∧
    (view.span test).1.offset = view.offset ∧
    (view.span test).2.offset = view.offset + (view.span test).1.length
  droppedTwice : ∀ first second : Nat,
    ((view.drop first).drop second).text = (view.drop (first + second)).text ∧
    ((view.drop first).drop second).offset = (view.drop (first + second)).offset

theorem showsSlice_of_buffer {text : String} {view : View}
    (shared : view.buffer = text.toList.toArray) : view.ShowsSlice text := by
  have size : view.buffer.size = text.length := by
    rw [shared, List.size_toArray, String.length_toList]
  have ordered := view.start_le_stop
  have bounded := view.stop_le_size
  constructor
  · exact ⟨ordered, by omega, rfl⟩
  · rw [toList_text, chars, shared]
    simp [length, offset, List.extract_eq_take_drop]
  · intro index below
    have inside : index < view.chars.length := by simpa only [toList_text] using below
    simp only [get?_eq, toList_text]
    simp [inside]
  · intro index beyond
    rw [get?, if_neg beyond]
  · rw [length_text]
    exact ⟨rfl, rfl, rfl⟩
  · intro count
    simp only [toList_text]
    exact ⟨view.chars_drop count, view.offset_drop count⟩
  · intro test
    simp only [toList_text, chars_span_fst, chars_span_snd]
    refine ⟨longestPrefix_takeWhile test view.chars, ?_, rfl, ?_⟩
    · simp only [View.text, chars_span_fst, chars_span_snd, ← String.ofList_append,
        List.takeWhile_append_dropWhile]
    · rw [offset_span_snd, ← chars_span_fst, length_chars]
  · intro first second
    rw [drop_drop]
    exact ⟨rfl, rfl⟩

/-- However a view is reached, it is the slice that the same moves make of the text. -/
theorem showsSlice_of_moves (text : String) (moves : List Move) :
    (moves.foldl move (of text)).slice = moves.foldl Slice.move (Slice.of text) ∧
      (moves.foldl move (of text)).ShowsSlice text := by
  constructor
  · rw [slice_foldl_move, slice_of]
  · apply showsSlice_of_buffer
    rw [buffer_foldl_move]
    rfl

end View

end Descent
