import Descent.View.Basic

/-!
A view behaves as the list of its characters: dropping is `List.drop`, and a span is
`List.takeWhile` with `List.dropWhile`.
-/

namespace Descent.View

theorem length_chars (view : View) : view.chars.length = view.length := by
  have := view.stop_le_size
  simp [chars, length]
  omega

theorem toList_text (view : View) : view.text.toList = view.chars :=
  String.toList_ofList

theorem length_text (view : View) : view.text.length = view.length := by
  rw [← String.length_toList, toList_text, length_chars]

theorem offset_add_length (view : View) : view.offset + view.length = view.stop := by
  have := view.start_le_stop
  simp only [offset, length]
  omega

theorem chars_ofChars (content : List Char) : (ofChars content).chars = content := by
  simp [ofChars, chars]

theorem extract_eq_cons (buffer : Array Char) (start stop : Nat) (nonempty : start < stop)
    (bound : stop ≤ buffer.size) :
    (buffer.extract start stop).toList =
      buffer[start] :: (buffer.extract (start + 1) stop).toList := by
  have inside : start < buffer.toList.length := by simp; omega
  simp only [Array.toList_extract, List.extract_eq_take_drop]
  rw [List.drop_eq_getElem_cons inside, show stop - start = stop - (start + 1) + 1 by omega,
    List.take_succ_cons, Array.getElem_toList]

theorem get?_eq (view : View) (index : Int) :
    view.get? index = if 0 ≤ index then view.chars[index.toNat]? else none := by
  have := view.stop_le_size
  have := view.length_chars
  by_cases negative : 0 ≤ index
  · by_cases below : index < view.length
    · have inside : index.toNat < view.stop - view.start := by
        simp only [length] at below
        omega
      simp only [get?, chars, negative, below, and_self, if_true, Array.toList_extract,
        List.extract_eq_take_drop, List.getElem?_take_of_lt inside, List.getElem?_drop,
        Array.getElem?_toList]
    · have beyond : view.chars.length ≤ index.toNat := by omega
      simp [get?, negative, below, List.getElem?_eq_none beyond]
  · simp [get?, negative]

theorem chars_drop (view : View) (count : Int) :
    (view.drop count).chars = view.chars.drop count.toNat := by
  have := view.start_le_stop
  simp only [chars, drop, Array.toList_extract, List.extract_eq_take_drop, List.drop_take,
    List.drop_drop]
  by_cases short : view.start + count.toNat ≤ view.stop
  · rw [Nat.min_eq_left short]
    congr 1
    omega
  · rw [Nat.min_eq_right (by omega), Nat.sub_self,
      show view.stop - view.start - count.toNat = 0 by omega, List.take_zero, List.take_zero]

theorem extract_scan (buffer : Array Char) (stop : Nat) (bound : stop ≤ buffer.size)
    (test : Char → Bool) (index : Nat) (start : index ≤ stop) :
    (buffer.extract index (scan buffer stop bound test index)).toList =
        (buffer.extract index stop).toList.takeWhile test ∧
      (buffer.extract (scan buffer stop bound test index) stop).toList =
        (buffer.extract index stop).toList.dropWhile test := by
  fun_induction scan buffer stop bound test index with
  | case1 index below passes ih =>
    have after := ih below
    have lower := le_scan buffer stop bound test (index + 1)
    have upper := scan_le buffer stop bound test (index + 1) below
    rw [extract_eq_cons buffer index stop below bound,
      extract_eq_cons buffer index (scan buffer stop bound test (index + 1)) (by omega) (by omega),
      List.takeWhile_cons_of_pos passes, List.dropWhile_cons_of_pos passes, after.1, after.2]
    exact ⟨rfl, rfl⟩
  | case2 index below fails =>
    rw [extract_eq_cons buffer index stop below bound, List.takeWhile_cons_of_neg fails,
      List.dropWhile_cons_of_neg fails]
    simp
  | case3 index beyond =>
    have equal : index = stop := by omega
    subst equal
    simp

theorem chars_span_fst (view : View) (test : Char → Bool) :
    (view.span test).1.chars = view.chars.takeWhile test :=
  (extract_scan view.buffer view.stop view.stop_le_size test view.start view.start_le_stop).1

theorem chars_span_snd (view : View) (test : Char → Bool) :
    (view.span test).2.chars = view.chars.dropWhile test :=
  (extract_scan view.buffer view.stop view.stop_le_size test view.start view.start_le_stop).2

end Descent.View
