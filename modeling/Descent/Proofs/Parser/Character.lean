import Descent.Proofs.Parser.Sequence
import Mathlib

/-!
Texts and runs of characters. A text is matched where the view begins with it, though it is read
character by character. The longest run that passes a test is the same whether the view is scanned
once or a parser of one character is repeated.
-/

namespace Descent.Parser

section Literals

variable {text found : String} {view rest : View}

theorem literal_eq_matched_iff :
    literal text view = .matched found rest ↔
      text.toList <+: view.chars ∧ found = text ∧ rest = view.drop text.length := by
  rw [literal_apply]
  by_cases begins : text.toList <+: view.chars
  · rw [if_pos begins, Reply.matched.injEq]
    simp only [begins, true_and, eq_comm]
  · rw [if_neg begins]
    simp [begins]

theorem literal_eq_noMatch_iff : literal text view = .noMatch ↔ ¬text.toList <+: view.chars := by
  rw [literal_apply]
  split <;> simp_all

theorem literal_of_short (short : view.length < text.length) : literal text view = .noMatch := by
  rw [literal_eq_noMatch_iff]
  intro begins
  have length := begins.length_le
  rw [String.length_toList, View.length_chars] at length
  omega

/-- A text is read by reading its two parts, one behind the other. -/
theorem literal_append (text more : String) :
    literal (text ++ more) =
      lift2 (fun first second => .ok (first ++ second)) (literal text) (literal more) := by
  funext view
  simp only [literal, traverse, String.toList_append, List.map_append, sequence_append, map_apply,
    lift2_apply, Reply.bind_assoc, Reply.deliver_ok, Reply.bind_matched, String.ofList_append]

/-- A longer text is not tried with success where a beginning of it has failed. -/
theorem literal_alt_append (text more : String) :
    (literal text).alt (literal (text ++ more)) = literal text := by
  funext view
  by_cases begins : text.toList <+: view.chars
  · exact (alt_of_matched (literal_eq_matched_iff.mpr ⟨begins, rfl, rfl⟩)).trans
      (literal_eq_matched_iff.mpr ⟨begins, rfl, rfl⟩).symm
  · have fails := literal_eq_noMatch_iff.mpr begins
    apply alt_of_noMatch_right
    rw [literal_append, lift2_apply, fails, Reply.bind_noMatch]

/-- A literal is matched exactly where the view, not its buffer, begins with it. So a literal in two
parts is matched where the parts are, one behind the other, and it adds nothing as an alternative to
its first part. -/
theorem literal_matches_prefix (text more : String) (view : View) :
    (∀ found rest, literal text view = .matched found rest ↔
      text.toList <+: view.text.toList ∧ found = text ∧ rest = view.drop text.length) ∧
    (literal text view = .noMatch ↔ ¬text.toList <+: view.text.toList) ∧
    (∀ cause, literal text view ≠ .fault cause) ∧
    (view.length < text.length → literal text view = .noMatch) ∧
    literal (text ++ more) =
      lift2 (fun first second => .ok (first ++ second)) (literal text) (literal more) ∧
    (literal text).alt (literal (text ++ more)) = literal text := by
  rw [View.toList_text]
  refine ⟨fun found rest => literal_eq_matched_iff, literal_eq_noMatch_iff, ?_, literal_of_short,
    literal_append text more, literal_alt_append text more⟩
  intro cause raised
  rw [literal_apply] at raised
  split at raised <;> cases raised

/-- The buffer goes on with what is missing, but the view does not. -/
theorem literal_matches_no_further :
    literal "null" ((View.of "null").span (· != 'l')).1 = .noMatch ∧
      literal "nu" ((View.of "null").span (· != 'l')).1 ≠ .noMatch := by
  obtain ⟨_, _, _, short, _⟩ :=
    literal_matches_prefix "null" "" ((View.of "null").span (· != 'l')).1
  obtain ⟨_, refused, _⟩ := literal_matches_prefix "nu" "ll" ((View.of "null").span (· != 'l')).1
  refine ⟨short (by decide +kernel), fun fails => refused.mp fails (by decide +kernel)⟩

end Literals

section Runs

variable {test : Char → Bool} {view rest : View}

theorem satisfy_eq_noMatch_iff :
    satisfy test view = .noMatch ↔ view.chars.head?.any test = false := by
  rw [satisfy_apply]
  cases view.chars with
  | nil => simp
  | cons char more => by_cases passes : test char = true <;> simp [passes]

theorem notEmpty_span_eq_noMatch_iff :
    notEmpty (span test) view = .noMatch ↔ view.chars.head?.any test = false := by
  have shown : (view.span test).1.isEmpty = true ↔ view.chars.head?.any test = false := by
    rw [View.isEmpty_iff, View.chars_span_fst]
    cases view.chars with
    | nil => simp
    | cons char more => by_cases passes : test char = true <;> simp [passes]
  rw [← shown, notEmpty, guard_apply, span_apply, Reply.bind_matched]
  cases (view.span test).1.isEmpty <;> simp

/-- The repetition goes through a word whose characters pass, and stops where the next one fails. -/
theorem repeats_satisfy {word : List Char} (split : view.Splits word rest)
    (passes : ∀ char ∈ word, test char = true) (ends : rest.chars.head?.any test = false) :
    Repeats (satisfy test) view word rest := by
  induction word generalizing view with
  | nil =>
    obtain rfl := split.unique view.splits_nil
    exact .stops (satisfy_eq_noMatch_iff.mpr ends)
  | cons char word ih =>
    obtain ⟨middle, first, others⟩ := split.cons
    obtain ⟨pass, follow⟩ := List.forall_mem_cons.mp passes
    have lengths := first.length
    rw [List.length_singleton] at lengths
    exact .goesOn (satisfy_eq_matched.mpr ⟨first, pass⟩) (by omega) (ih others follow)

theorem many_satisfy (test : Char → Bool) (view : View) :
    many (satisfy test) view = .matched (view.span test).1.chars (view.span test).2 :=
  many_of_repeats <| repeats_satisfy (view.splits_span test) (fun _ => View.passes_of_mem_span)
    (view.fails_after_span test)

/-- A scan for the longest run and the repetition of a single character take the same text and leave
the same view, from which a single character is refused. The run is empty exactly where a single
character is refused at once. -/
theorem span_agrees_with_many (test : Char → Bool) (view : View) :
    ∃ found chars rest, span test view = .matched found rest ∧
      many (satisfy test) view = .matched chars rest ∧
      found.text = String.ofList chars ∧
      (notEmpty (span test) view = .noMatch ↔ satisfy test view = .noMatch) ∧
      satisfy test rest = .noMatch := by
  refine ⟨_, _, _, span_apply test view, many_satisfy test view, rfl, ?_, ?_⟩
  · rw [notEmpty_span_eq_noMatch_iff, satisfy_eq_noMatch_iff]
  · exact satisfy_eq_noMatch_iff.mpr (view.fails_after_span test)

end Runs

end Descent.Parser
