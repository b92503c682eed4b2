import Descent.Proofs.Json.Derivation
import Descent.Proofs.Parser.Equations
import Mathlib.Algebra.Group.Nat.Defs

/-!
Numbers are recognised by the whole run of their digits. Dropping leading zeros keeps the value,
and a run of more than ten digits that begins with another digit lies beyond 32 bits.
-/

namespace Descent.Json.Grammar

open Descent.Parser

theorem ofDigitChars_dropWhile_zero (digits : List Char) :
    Nat.ofDigitChars 10 (digits.dropWhile (· == '0')) 0 = Nat.ofDigitChars 10 digits 0 := by
  induction digits with
  | nil => rfl
  | cons digit digits ih =>
    by_cases zero : digit = '0'
    · subst zero
      rw [List.dropWhile_cons_of_pos (by rfl), ih, Nat.ofDigitChars_cons]
      rfl
    · rw [List.dropWhile_cons_of_neg (by simpa using zero)]

theorem ofDigitChars_withoutLeadingZeros (digits : List Char) :
    Nat.ofDigitChars 10 (withoutLeadingZeros digits) 0 = Nat.ofDigitChars 10 digits 0 := by
  have same := ofDigitChars_dropWhile_zero digits
  rw [withoutLeadingZeros]
  split
  · rename_i none
    rw [none] at same
    rw [← same]
    rfl
  · exact same

theorem digitRun_withoutLeadingZeros {digits : List Char} (run : DigitRun digits) :
    DigitRun (withoutLeadingZeros digits) := by
  rw [withoutLeadingZeros]
  split
  · refine ⟨by simp, fun char member => ?_⟩
    rw [List.mem_singleton.mp member]
    rfl
  · rename_i some
    refine ⟨some, fun char member => run.2 char ?_⟩
    exact (List.dropWhile_sublist _).subset member

theorem toNat_of_digit_ne_zero {digit : Char} (isDigit : digit.isDigit = true)
    (nonzero : digit ≠ '0') : 1 ≤ digit.toNat - '0'.toNat := by
  have bounds := Char.isDigit_iff_toNat.mp isDigit
  have different : digit.toNat ≠ '0'.toNat := fun same => nonzero (Char.toNat_inj.mp same)
  omega

theorem pow_le_ofDigitChars {digit : Char} {digits : List Char} (isDigit : digit.isDigit = true)
    (nonzero : digit ≠ '0') :
    10 ^ digits.length ≤ Nat.ofDigitChars 10 (digit :: digits) 0 := by
  have positive := toNat_of_digit_ne_zero isDigit nonzero
  rw [Nat.ofDigitChars_cons, Nat.ofDigitChars_eq_ofDigitChars_zero, Nat.mul_zero, Nat.zero_add]
  calc
    10 ^ digits.length = 10 ^ digits.length * 1 := by rw [Nat.mul_one]
    _ ≤ 10 ^ digits.length * (digit.toNat - '0'.toNat) := Nat.mul_le_mul_left _ positive
    _ ≤ _ := Nat.le_add_right _ _

/-- The limit on significant digits refuses no number of 32 bits. -/
theorem length_withoutLeadingZeros_le {digits : List Char} (run : DigitRun digits)
    (small : Nat.ofDigitChars 10 digits 0 ≤ 2 ^ 31) :
    (withoutLeadingZeros digits).length ≤ digitLimit := by
  have value := ofDigitChars_dropWhile_zero digits
  rw [withoutLeadingZeros]
  split
  · decide
  · rename_i some
    cases significant : digits.dropWhile (· == '0') with
    | nil => exact absurd significant some
    | cons digit others =>
      have isDigit : digit.isDigit = true := by
        apply run.2
        apply (List.dropWhile_sublist (· == '0')).subset
        rw [significant]
        exact List.mem_cons_self
      have nonzero : digit ≠ '0' := by
        have head := List.head?_dropWhile_not (· == '0') digits
        rw [significant] at head
        simpa using head
      have large : 10 ^ others.length ≤ Nat.ofDigitChars 10 (digit :: others) 0 :=
        pow_le_ofDigitChars isDigit nonzero
      rw [← significant, value] at large
      rw [List.length_cons, digitLimit]
      rcases Nat.lt_or_ge others.length 10 with short | long
      · exact short
      · have more : 10 ^ 10 ≤ 10 ^ others.length := Nat.pow_le_pow_right (by decide) long
        omega

theorem plain?_of_digitRun {digits : List Char} (run : DigitRun digits) :
    Numeral.plain? digits = some (Nat.ofDigitChars 10 digits 0) := by
  rw [Numeral.plain?, if_pos ⟨run.1, List.all_eq_true.mpr run.2⟩]

theorem applySign_withoutLeadingZeros (minus : Option Char) {digits : List Char}
    (run : DigitRun digits) :
    applySign minus (withoutLeadingZeros digits) =
      .ok (if minus.isNone then (Nat.ofDigitChars 10 digits 0 : Int)
        else -(Nat.ofDigitChars 10 digits 0 : Int)) := by
  rw [applySign, plain?_of_digitRun (digitRun_withoutLeadingZeros run),
    ofDigitChars_withoutLeadingZeros]

theorem digits_eq_matched {view rest : View} {found : List Char}
    (parsed : digits view = .matched found rest) :
    ∃ word, view.Splits word rest ∧ DigitRun word ∧ startsWithDigit rest.chars = false ∧
      found = withoutLeadingZeros word := by
  obtain ⟨mapped, _⟩ := guard_eq_matched.mp parsed
  obtain ⟨content, middle, spanned, made⟩ := Reply.bind_eq_matched.mp mapped
  obtain ⟨spanned, some⟩ := guard_eq_matched.mp spanned
  rw [span_apply] at spanned
  cases spanned
  cases made
  refine ⟨_, view.splits_span _, ⟨?_, ?_⟩, view.fails_after_span _, rfl⟩
  · intro none
    rw [(View.isEmpty_iff _).mpr none] at some
    exact nomatch some
  · intro char member
    exact View.passes_of_mem_span member

theorem digits_of_splits {view rest : View} {word : List Char} (split : view.Splits word rest)
    (run : DigitRun word) (small : Nat.ofDigitChars 10 word 0 ≤ 2 ^ 31)
    (ends : startsWithDigit rest.chars = false) :
    digits view = .matched (withoutLeadingZeros word) rest := by
  obtain ⟨whole, last⟩ := View.span_of_splits split run.2 ends
  have some : (view.span Char.isDigit).1.isEmpty = false := by
    rw [Bool.eq_false_iff]
    intro none
    rw [View.isEmpty_iff, whole] at none
    exact run.1 none
  have short := length_withoutLeadingZeros_le run small
  refine guard_eq_matched.mpr ⟨?_, by simp [short]⟩
  refine Reply.bind_eq_matched.mpr ⟨(view.span Char.isDigit).1, rest, ?_, by simp [whole]⟩
  refine guard_eq_matched.mpr ⟨?_, by rw [some]; rfl⟩
  rw [span_apply, last]

theorem digits_of_noDigit {view : View} (none : startsWithDigit view.chars = false) :
    digits view = .noMatch := by
  obtain ⟨nothing, _⟩ := View.span_of_splits view.splits_nil (by simp) none
  have empty : (view.span Char.isDigit).1.isEmpty = true := (View.isEmpty_iff _).mpr nothing
  apply guard_of_noMatch
  rw [map_apply, notEmpty, guard_apply, span_apply, Reply.bind_matched, empty]
  rfl

theorem number_eq_matched {view rest : View} {value : Json}
    (parsed : number view = .matched value rest) :
    ∃ word number, view.Splits word rest ∧ NumberWord word number ∧
      startsWithDigit rest.chars = false ∧ least ≤ number ∧ number ≤ greatest ∧ value = .num number := by
  obtain ⟨number, last, guarded, made⟩ := Reply.bind_eq_matched.mp parsed
  cases made
  obtain ⟨signed, inRange⟩ := guard_eq_matched.mp guarded
  simp only [Except.ok.injEq, Bool.and_eq_true, decide_eq_true_eq] at inRange
  simp only [integer, ap_apply, map_apply, Reply.bind_assoc, Reply.deliver_ok, Reply.bind_matched,
    Reply.bind_eq_matched] at signed
  obtain ⟨minus, middle, sign, found, last, run, made⟩ := signed
  obtain ⟨word, split, digitRun, whole, rfl⟩ := digits_eq_matched run
  rw [applySign_withoutLeadingZeros _ digitRun] at made
  cases made
  rw [maybe_apply] at sign
  split at sign
  · rename_i starts
    cases sign
    obtain ⟨more, shown⟩ := List.head?_eq_some_iff.mp starts
    have signed := (View.splits_drop ['-'] shown).1.trans split
    exact ⟨_, _, signed, .negative digitRun, whole, inRange.1, inRange.2, rfl⟩
  · cases sign
    exact ⟨_, _, split, .plain digitRun, whole, inRange.1, inRange.2, rfl⟩

theorem number_of_head {view : View} (unsigned : view.chars.head? ≠ some '-')
    (none : startsWithDigit view.chars = false) : number view = .noMatch := by
  rw [number, map_apply, guard_of_noMatch, Reply.bind_noMatch]
  rw [integer, ap_apply, map_apply, maybe_apply, if_neg unsigned, Reply.bind_matched,
    Reply.deliver_ok, Reply.bind_matched, digits_of_noDigit none, Reply.bind_noMatch]

theorem head?_ne_minus {view rest : View} {word : List Char} (split : view.Splits word rest)
    (run : DigitRun word) : view.chars.head? ≠ some '-' := by
  rw [split.chars]
  cases word with
  | nil => exact absurd rfl run.1
  | cons first others =>
    intro minus
    have isDigit := run.2 first List.mem_cons_self
    cases minus
    exact nomatch isDigit

theorem number_of_splits {view rest : View} {word : List Char} {value : Int}
    (split : view.Splits word rest) (written : NumberWord word value) (lower : least ≤ value)
    (upper : value ≤ greatest) (ends : startsWithDigit rest.chars = false) :
    number view = .matched (.num value) rest := by
  refine Reply.bind_eq_matched.mpr
    ⟨value, rest, guard_eq_matched.mpr ⟨?_, by simp [lower, upper]⟩, rfl⟩
  simp only [integer, ap_apply, map_apply, Reply.bind_assoc, Reply.deliver_ok, Reply.bind_matched]
  rw [maybe_apply]
  cases written with
  | plain run =>
    rw [if_neg (head?_ne_minus split run), Reply.bind_matched,
      digits_of_splits split run (by simp only [greatest] at upper; omega) ends,
      Reply.bind_matched, applySign_withoutLeadingZeros _ run]
    rfl
  | negative run =>
    obtain ⟨middle, minus, others⟩ := split.cons
    rw [if_pos split.head?_chars, Reply.bind_matched, ← minus.eq_drop_one,
      digits_of_splits others run (by simp only [least] at lower; omega) ends,
      Reply.bind_matched, applySign_withoutLeadingZeros _ run]
    rfl

end Descent.Json.Grammar
