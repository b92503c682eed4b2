import Descent.View.Lemmas

/-!
Reading a word from the front of a view. What is left looks at the same buffer up to the same end.
-/

namespace Descent.View

structure Splits (view : View) (word : List Char) (rest : View) : Prop where
  buffer : rest.buffer = view.buffer
  stop : rest.stop = view.stop
  chars : view.chars = word ++ rest.chars

def upTo (view rest : View) : List Char :=
  (view.buffer.extract view.start rest.start).toList

theorem eq_of_bounds {first second : View} (buffer : first.buffer = second.buffer)
    (start : first.start = second.start) (stop : first.stop = second.stop) : first = second := by
  cases first
  cases second
  simp_all

theorem offset_drop (view : View) (count : Int) :
    (view.drop count).offset = view.offset + min count.toNat view.length := by
  have := view.start_le_stop
  simp only [drop, offset, length]
  omega

theorem isEmpty_iff (view : View) : view.isEmpty = true ↔ view.chars = [] := by
  rw [isEmpty, beq_iff_eq, ← length_chars, List.length_eq_zero_iff]

theorem isNotEmpty_iff (view : View) : view.isNotEmpty = true ↔ view.chars ≠ [] := by
  rw [isNotEmpty, bne_iff_ne, ← length_chars, ne_eq, List.length_eq_zero_iff]

theorem splits_nil (view : View) : view.Splits [] view :=
  ⟨rfl, rfl, rfl⟩

theorem splits_drop {view : View} (word : List Char) {more : List Char}
    (shown : view.chars = word ++ more) :
    view.Splits word (view.drop word.length) ∧ (view.drop word.length).chars = more := by
  have left : (view.drop word.length).chars = more := by
    rw [chars_drop, shown, Int.toNat_natCast, List.drop_left]
  exact ⟨⟨rfl, rfl, by rw [left, shown]⟩, left⟩

theorem splits_span (view : View) (test : Char → Bool) :
    view.Splits (view.span test).1.chars (view.span test).2 :=
  ⟨rfl, rfl, by rw [chars_span_fst, chars_span_snd, List.takeWhile_append_dropWhile]⟩

theorem passes_of_mem_span {view : View} {test : Char → Bool} {char : Char}
    (member : char ∈ (view.span test).1.chars) : test char = true := by
  rw [chars_span_fst] at member
  exact List.all_eq_true.mp List.all_takeWhile char member

theorem fails_after_span (view : View) (test : Char → Bool) :
    (view.span test).2.chars.head?.any test = false := by
  have head := List.head?_dropWhile_not test view.chars
  rw [← chars_span_snd] at head
  cases shown : (view.span test).2.chars.head? with
  | none => rfl
  | some char => simpa [shown] using head

namespace Splits

variable {view middle rest : View} {word more : List Char}

theorem trans (first : view.Splits word middle) (second : middle.Splits more rest) :
    view.Splits (word ++ more) rest :=
  ⟨second.buffer.trans first.buffer, second.stop.trans first.stop, by
    rw [first.chars, second.chars, List.append_assoc]⟩

theorem length (split : view.Splits word rest) : view.length = word.length + rest.length := by
  rw [← length_chars, split.chars, List.length_append, length_chars]

theorem start (split : view.Splits word rest) : rest.start = view.start + word.length := by
  have lengths := split.length
  have stop := split.stop
  have := view.start_le_stop
  have := rest.start_le_stop
  simp only [View.length] at lengths
  omega

theorem eq_drop (split : view.Splits word rest) : rest = view.drop word.length := by
  have lengths := split.length
  have := view.offset_add_length
  refine eq_of_bounds split.buffer ?_ split.stop
  simp only [drop, Int.toNat_natCast, split.start]
  simp only [offset] at this
  omega

theorem eq_drop_one {char : Char} (split : view.Splits [char] rest) : rest = view.drop 1 :=
  split.eq_drop

theorem unique {other : View} (split : view.Splits word rest)
    (otherSplit : view.Splits word other) : rest = other :=
  split.eq_drop.trans otherSplit.eq_drop.symm

theorem upTo_eq (split : view.Splits word rest) : view.upTo rest = word := by
  have lengths := split.length
  have shown := split.chars
  have taken : view.chars.take word.length = word := by rw [shown, List.take_left]
  simp only [View.length] at lengths
  simp only [View.chars, Array.toList_extract, List.extract_eq_take_drop, List.take_take] at taken
  simp only [upTo, Array.toList_extract, List.extract_eq_take_drop, split.start,
    Nat.add_sub_cancel_left]
  rwa [Nat.min_eq_left (by omega)] at taken

theorem between (split : view.Splits (word ++ more) rest) :
    ∃ middle, view.Splits word middle ∧ middle.Splits more rest := by
  have shown : view.chars = word ++ (more ++ rest.chars) := by
    rw [split.chars, List.append_assoc]
  obtain ⟨first, left⟩ := splits_drop word shown
  exact ⟨_, first, split.buffer, split.stop, left⟩

theorem cons {char : Char} (split : view.Splits (char :: more) rest) :
    ∃ middle, view.Splits [char] middle ∧ middle.Splits more rest :=
  @between view rest [char] more split

theorem head?_chars {char : Char} (split : view.Splits (char :: more) rest) :
    view.chars.head? = some char := by
  rw [split.chars]
  rfl

end Splits

theorem offset_span_snd (view : View) (test : Char → Bool) :
    (view.span test).2.offset = view.offset + (view.chars.takeWhile test).length := by
  have start := (view.splits_span test).start
  rwa [chars_span_fst] at start

theorem span_of_splits {view rest : View} {word : List Char} {test : Char → Bool}
    (split : view.Splits word rest) (passes : ∀ char ∈ word, test char = true)
    (ends : rest.chars.head?.any test = false) :
    (view.span test).1.chars = word ∧ (view.span test).2 = rest := by
  have taken : rest.chars.takeWhile test = [] := by
    cases remaining : rest.chars with
    | nil => rfl
    | cons char more =>
      rw [remaining] at ends
      have fails : test char = false := ends
      rw [List.takeWhile_cons_of_neg (by simp [fails])]
  have whole : (view.span test).1.chars = word := by
    rw [chars_span_fst, split.chars, List.takeWhile_append_of_pos passes, taken, List.append_nil]
  exact ⟨whole, (whole ▸ view.splits_span test).unique split⟩

def Reaches (view rest : View) : Prop :=
  ∃ word, view.Splits word rest

section

variable {view middle rest : View}

theorem Splits.reaches {word : List Char} (split : view.Splits word rest) : view.Reaches rest :=
  ⟨word, split⟩

theorem Reaches.refl (view : View) : view.Reaches view :=
  view.splits_nil.reaches

theorem Reaches.trans (first : view.Reaches middle) (second : middle.Reaches rest) :
    view.Reaches rest := by
  obtain ⟨word, split⟩ := first
  obtain ⟨more, others⟩ := second
  exact (split.trans others).reaches

theorem Reaches.offset_le (reaches : view.Reaches rest) : view.offset ≤ rest.offset := by
  obtain ⟨word, split⟩ := reaches
  have start := split.start
  simp only [offset]
  omega

theorem Reaches.length_le (reaches : view.Reaches rest) : rest.length ≤ view.length := by
  obtain ⟨word, split⟩ := reaches
  have lengths := split.length
  omega

theorem Reaches.eq_of_length {first second : View} (reaches : view.Reaches first)
    (reachesToo : view.Reaches second) (same : first.length = second.length) : first = second := by
  obtain ⟨word, split⟩ := reaches
  obtain ⟨other, splitToo⟩ := reachesToo
  have lengths := split.length
  have lengthsToo := splitToo.length
  have equal : word.length = other.length := by omega
  rw [split.eq_drop, splitToo.eq_drop, equal]

theorem reaches_drop (view : View) (count : Int) : view.Reaches (view.drop count) := by
  refine ⟨view.chars.take count.toNat, rfl, rfl, ?_⟩
  rw [chars_drop, List.take_append_drop]

end

def Lasting (ready : View → Prop) : Prop :=
  ∀ ⦃view rest : View⦄, view.Reaches rest → ready view → ready rest

theorem lasting_true : Lasting fun _ => True :=
  fun _ _ _ _ => trivial

end Descent.View
