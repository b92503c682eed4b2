import Descent.Proofs.Pattern.Locality
import Descent.Proofs.View.Sameness
import Mathlib

/-!
Views that are the same are the same to every parser: runs on them end the same way, whatever is
matched, dropped or given back on the way.
-/

namespace Descent

def Likeness.same : Likeness where
  ahead := fun first second => first.same second = true
  held := fun first second => first.same second = true
  lost := fun _ => False
  chars_of_ahead := View.chars_of_same
  chars_of_held := View.chars_of_same
  drop := fun count same => View.same_move same (.drop count)
  taken := fun test same => View.same_move same (.taken test)
  left := fun test same => View.same_move same (.left test)

inductive Reply.Same : Reply Value → Reply Value → Prop
  | matched {value other rest remainder} : rest.same remainder = true →
      value.Alike (fun first second => first.same second = true) other →
      Same (.matched value rest) (.matched other remainder)
  | noMatch : Same .noMatch .noMatch
  | fault (cause) : Same (.fault cause) (.fault cause)

theorem Reply.Alike.same {reply other : Reply Value}
    (alike : reply.Alike .same (Value.Alike Likeness.same.held) other) :
    reply = .exhausted ∧ other = .exhausted ∨ reply.Same other := by
  cases alike with
  | matched values left => exact .inr (.matched left values)
  | noMatch => exact .inr .noMatch
  | fault cause => exact .inr (.fault cause)
  | exhausted => exact .inl ⟨rfl, rfl⟩
  | lostFault lost => exact lost.elim
  | lostRun lost => exact lost.elim

theorem Reply.Same.ended {reply other : Reply Value} (same : reply.Same other) :
    reply ≠ .exhausted ∧ other ≠ .exhausted := by
  cases same <;> exact ⟨nofun, nofun⟩

namespace Meanings

variable {κ : Type} (meanings : Meanings κ) (pattern : Pattern κ) {first second : View}

structure EqualRuns (meanings : Meanings κ) (pattern : Pattern κ) (first second : View) : Prop where
  both_end : (∃ reply, meanings.Ends pattern first reply) ↔
    ∃ other, meanings.Ends pattern second other
  same : ∀ reply other, meanings.Ends pattern first reply → meanings.Ends pattern second other →
    reply.Same other
  run_same : ∀ count, meanings.run count pattern first = .exhausted ∧
      meanings.run count pattern second = .exhausted ∨
    (meanings.run count pattern first).Same (meanings.run count pattern second)

theorem equalRuns_of_same (same : first.same second = true) :
    meanings.EqualRuns pattern first second := by
  have answers (fuel : Nat) : pattern.eval (meanings.enter fuel) first = .exhausted ∧
        pattern.eval (meanings.enter fuel) second = .exhausted ∨
      (pattern.eval (meanings.enter fuel) first).Same
        (pattern.eval (meanings.enter fuel) second) := by
    have alike := @eval_alike _ meanings pattern .same fuel fuel (.inl rfl)
      fun view _ => view.same_refl
    exact (alike first second same).same
  obtain ⟨both, agree⟩ := ends_related Reply.Same.ended answers
  refine ⟨both, agree, fun count => ?_⟩
  rw [run, run, enough, enough, Likeness.same.length_of_ahead same]
  exact answers _

/-- Sameness of views is an equivalence, under which a list holds as many different views as can be
selected from it, in whatever order. Every way to cut a view and every parser respects it, also on
empty views that lie at different offsets. -/
theorem sameness_respected :
    EquivalenceOn (fun _ => True) View.same ∧
    (∀ first second : View, first.same second = true ↔ first = second ∨
      first.buffer = second.buffer ∧ first.isEmpty = true ∧ second.isEmpty = true) ∧
    (∀ views : List View,
      (∀ picked, Selection View.same picked views →
        picked.length = distinctCount View.same views) ∧
      ∀ others, views.Perm others →
        distinctCount View.same views = distinctCount View.same others) ∧
    ∀ first second : View, first.same second = true →
      first.text = second.text ∧ first.length = second.length ∧
      (∀ count, (first.drop count).same (second.drop count) = true) ∧
      (∀ test, (first.span test).1.same (second.span test).1 = true ∧
        (first.span test).2.same (second.span test).2 = true) ∧
      (∀ moves : List View.Move,
        (moves.foldl View.move first).same (moves.foldl View.move second) = true) ∧
      meanings.EqualRuns pattern first second := by
  refine ⟨View.same_equivalence, fun _ _ => View.same_iff, fun views => ⟨?_, ?_⟩, ?_⟩
  · intro picked selection
    exact View.same_equivalence.length_eq_distinctCount (fun _ _ => trivial) selection
  · intro others perm
    exact View.same_equivalence.distinctCount_perm (fun _ _ => trivial) perm
  · intro first second same
    refine ⟨congrArg String.ofList (View.chars_of_same same), Likeness.same.length_of_ahead same,
      fun count => View.same_move same (.drop count), fun test => ⟨?_, ?_⟩,
      View.same_foldl_move same, ?_⟩
    · exact View.same_move same (.taken test)
    · exact View.same_move same (.left test)
    · exact meanings.equalRuns_of_same pattern same

/-- The digits of `ab` are none, at its beginning, and what is left of it without its characters is
nothing, at its end. -/
theorem nothing_same_at_both_ends :
    ((View.of "ab").span Char.isDigit).1.offset = 0 ∧ ((View.of "ab").drop 2).offset = 2 ∧
    ((View.of "ab").span Char.isDigit).1.same ((View.of "ab").drop 2) = true ∧
    nested.EqualRuns (.reference ()) ((View.of "ab").span Char.isDigit).1 ((View.of "ab").drop 2) ∧
    [View.of "ab", (View.of "ab").drop 2].Perm [(View.of "ab").drop 2, View.of "ab"] ∧
    distinctCount View.same [View.of "ab", (View.of "ab").drop 2] =
      distinctCount View.same [(View.of "ab").drop 2, View.of "ab"] ∧
    Selection View.same [(View.of "ab").drop 2]
      [((View.of "ab").span Char.isDigit).1, (View.of "ab").drop 2] ∧
    distinctCount View.same [((View.of "ab").span Char.isDigit).1, (View.of "ab").drop 2] = 1 := by
  have same : ((View.of "ab").span Char.isDigit).1.same ((View.of "ab").drop 2) = true := by cbv
  have swapped : [View.of "ab", (View.of "ab").drop 2].Perm [(View.of "ab").drop 2, View.of "ab"] :=
    .swap _ _ []
  have selection : Selection View.same [(View.of "ab").drop 2]
      [((View.of "ab").span Char.isDigit).1, (View.of "ab").drop 2] := by
    refine ⟨List.subset_cons_self _ _, List.pairwise_singleton _ _, ?_⟩
    rw [List.forall_mem_cons, List.forall_mem_singleton]
    exact ⟨⟨_, List.mem_cons_self, same⟩, _, List.mem_cons_self, View.same_refl _⟩
  obtain ⟨_, _, counted, respected⟩ := nested.sameness_respected (.reference ())
  obtain ⟨_, _, _, _, _, runs⟩ := respected _ _ same
  exact ⟨by cbv, by cbv, same, runs, swapped, (counted _).2 _ swapped, selection,
    ((counted _).1 _ selection).symm⟩

end Meanings

end Descent
