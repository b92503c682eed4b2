import Descent.Proofs.Distinct
import Descent.Proofs.View.Window

/-!
Views are the same if they are equal or if both are empty, over equal buffers. What is the same
shows the same text, and stays the same whatever is dropped from it or spanned in it.
-/

namespace Descent.View

variable {first second third : View}

/-- Only empty views are the same without being equal: they may lie at different offsets. -/
theorem same_iff : first.same second = true ↔ first = second ∨
    first.buffer = second.buffer ∧ first.isEmpty = true ∧ second.isEmpty = true := by
  simp only [same, Bool.and_eq_true, Bool.or_eq_true, beq_iff_eq]
  constructor
  · rintro ⟨empty | ⟨start, stop⟩, buffer⟩
    · exact .inr ⟨buffer, empty⟩
    · exact .inl (eq_of_bounds buffer start stop)
  · rintro (rfl | ⟨buffer, empty⟩)
    · exact ⟨.inr ⟨rfl, rfl⟩, rfl⟩
    · exact ⟨.inl empty, buffer⟩

theorem same_refl (view : View) : view.same view = true :=
  same_iff.mpr (.inl rfl)

theorem same_symm (same : first.same second = true) : second.same first = true := by
  rcases same_iff.mp same with rfl | ⟨buffer, empty, emptyToo⟩
  · exact same
  · exact same_iff.mpr (.inr ⟨buffer.symm, emptyToo, empty⟩)

theorem same_trans (same : first.same second = true) (sameToo : second.same third = true) :
    first.same third = true := by
  rcases same_iff.mp same with rfl | ⟨buffer, empty, _⟩
  · exact sameToo
  · rcases same_iff.mp sameToo with rfl | ⟨bufferToo, _, emptyToo⟩
    · exact same
    · exact same_iff.mpr (.inr ⟨buffer.trans bufferToo, empty, emptyToo⟩)

theorem same_equivalence : EquivalenceOn (fun _ => True) same where
  refl := fun {view} _ => same_refl view
  symm := fun _ _ => same_symm
  trans := fun _ _ _ => same_trans

theorem chars_of_same (same : first.same second = true) : first.chars = second.chars := by
  rcases same_iff.mp same with rfl | ⟨_, empty, emptyToo⟩
  · rfl
  · rw [(isEmpty_iff first).mp empty, (isEmpty_iff second).mp emptyToo]

theorem isEmpty_move (empty : first.isEmpty = true) (move : Move) :
    (first.move move).isEmpty = true := by
  rw [isEmpty_iff] at empty ⊢
  have moved := congrArg Slice.chars (first.slice_move move)
  rw [slice, slice, empty] at moved
  cases move <;> simpa [Slice.move] using moved

/-- Whatever is cut from views that are the same is the same again. -/
theorem same_move (same : first.same second = true) (move : Move) :
    (first.move move).same (second.move move) = true := by
  rcases same_iff.mp same with rfl | ⟨buffer, empty, emptyToo⟩
  · exact same_refl _
  · refine same_iff.mpr (.inr ⟨?_, isEmpty_move empty move, isEmpty_move emptyToo move⟩)
    rw [buffer_move, buffer_move, buffer]

theorem same_foldl_move (same : first.same second = true) (moves : List Move) :
    (moves.foldl move first).same (moves.foldl move second) = true := by
  induction moves generalizing first second with
  | nil => exact same
  | cons move moves ih => exact ih (same_move same move)

end Descent.View
