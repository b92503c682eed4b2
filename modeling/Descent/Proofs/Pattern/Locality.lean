import Descent.Proofs.Pattern.Endings
import Mathlib

/-!
A run sees nothing but the text of its view. On two views of one text it ends the same way, only
that what is said of places is shifted.
-/

namespace Descent

structure View.Moved (distance : Int) (first second : View) : Prop where
  chars : first.chars = second.chars
  offset : (first.offset : Int) = second.offset + distance

namespace View

variable {distance : Int} {first second : View}

theorem chars_of_text (same : first.text = second.text) : first.chars = second.chars :=
  String.ofList_inj.mp same

theorem Moved.length (moved : first.Moved distance second) : first.length = second.length := by
  rw [← length_chars, ← length_chars, moved.chars]

theorem Moved.drop (moved : first.Moved distance second) (count : Int) :
    (first.drop count).Moved distance (second.drop count) := by
  refine ⟨by rw [chars_drop, chars_drop, moved.chars], ?_⟩
  have offset := moved.offset
  rw [offset_drop, offset_drop, moved.length]
  omega

theorem Moved.taken (moved : first.Moved distance second) (test : Char → Bool) :
    (first.span test).1.Moved distance (second.span test).1 :=
  ⟨by rw [chars_span_fst, chars_span_fst, moved.chars], moved.offset⟩

theorem Moved.left (moved : first.Moved distance second) (test : Char → Bool) :
    (first.span test).2.Moved distance (second.span test).2 := by
  refine ⟨by rw [chars_span_snd, chars_span_snd, moved.chars], ?_⟩
  have offset := moved.offset
  rw [offset_span_snd, offset_span_snd, moved.chars]
  omega

end View

/-- A view that stands in the grammar itself is no part of the text, and stays where it is. -/
def Likeness.moved (distance : Int) (own : View → Prop) : Likeness where
  ahead := View.Moved distance
  held := fun first second => first.Moved distance second ∨ first = second ∧ own first
  lost := fun _ => False
  chars_of_ahead := View.Moved.chars
  chars_of_held := by
    rintro first second (moved | ⟨rfl, _⟩)
    · exact moved.chars
    · rfl
  drop := fun count moved => moved.drop count
  taken := fun test moved => .inl (moved.taken test)
  left := fun test moved => moved.left test

inductive Reply.Shifted (distance : Int) (own : View → Prop) : Reply Value → Reply Value → Prop
  | matched {value other rest remainder} : rest.length = remainder.length →
      rest.Moved distance remainder →
      value.Alike (fun first second => first.Moved distance second ∨ first = second ∧ own first)
        other →
      Shifted distance own (.matched value rest) (.matched other remainder)
  | noMatch : Shifted distance own .noMatch .noMatch
  | fault (cause) : Shifted distance own (.fault cause) (.fault cause)

theorem Reply.Alike.shifted {distance : Int} {own : View → Prop} {reply other : Reply Value}
    (alike : reply.Alike (.moved distance own) (Value.Alike (Likeness.moved distance own).held)
      other) :
    reply = .exhausted ∧ other = .exhausted ∨ reply.Shifted distance own other := by
  cases alike with
  | matched values moved => exact .inr (.matched (View.Moved.length moved) moved values)
  | noMatch => exact .inr .noMatch
  | fault cause => exact .inr (.fault cause)
  | exhausted => exact .inl ⟨rfl, rfl⟩
  | lostFault lost => exact lost.elim
  | lostRun lost => exact lost.elim

theorem Reply.Shifted.ended {distance : Int} {own : View → Prop} {reply other : Reply Value}
    (shifted : reply.Shifted distance own other) : reply ≠ .exhausted ∧ other ≠ .exhausted := by
  cases shifted <;> exact ⟨nofun, nofun⟩

namespace Meanings

variable {κ : Type}

structure SameRuns (meanings : Meanings κ) (pattern : Pattern κ) (distance : Int)
    (first second : View) : Prop where
  both_end : (∃ reply, meanings.Ends pattern first reply) ↔
    ∃ other, meanings.Ends pattern second other
  shifted : ∀ reply other, meanings.Ends pattern first reply → meanings.Ends pattern second other →
    reply.Shifted distance (meanings.Mentions pattern) other
  run_shifted : ∀ count, meanings.run count pattern first = .exhausted ∧
      meanings.run count pattern second = .exhausted ∨
    (meanings.run count pattern first).Shifted distance (meanings.Mentions pattern)
      (meanings.run count pattern second)

variable (meanings : Meanings κ) (pattern : Pattern κ) {distance : Int} {first second : View}

theorem eval_shifted (moved : first.Moved distance second) (fuel : Nat) :
    pattern.eval (meanings.enter fuel) first = .exhausted ∧
      pattern.eval (meanings.enter fuel) second = .exhausted ∨
    (pattern.eval (meanings.enter fuel) first).Shifted distance (meanings.Mentions pattern)
      (pattern.eval (meanings.enter fuel) second) := by
  have alike := @eval_alike _ meanings pattern (.moved distance (meanings.Mentions pattern)) fuel
    fuel (.inl rfl) fun view mentioned => .inr ⟨rfl, mentioned⟩
  exact (alike first second moved).shifted

theorem sameRuns_of_moved (moved : first.Moved distance second) :
    meanings.SameRuns pattern distance first second := by
  have shifted := meanings.eval_shifted pattern moved
  obtain ⟨both, agree⟩ := ends_related Reply.Shifted.ended shifted
  refine ⟨both, agree, fun count => ?_⟩
  rw [run, run, enough, enough, moved.length]
  exact shifted _

/-- What stands around a view in its buffer, and where it stands there, has no part in a run. A
text with something dropped before it is read as the text alone. -/
theorem sameRuns_of_text :
    (∀ first second : View, first.text = second.text →
      meanings.SameRuns pattern (first.offset - second.offset) first second) ∧
    ∀ before text : String, meanings.SameRuns pattern before.length
      ((View.of (before ++ text)).drop before.length) (View.of text) := by
  constructor
  · intro first second same
    exact meanings.sameRuns_of_moved pattern ⟨View.chars_of_text same, by omega⟩
  · intro before text
    refine meanings.sameRuns_of_moved pattern ⟨?_, ?_⟩
    · rw [View.chars_drop, View.of, View.of, View.chars_ofChars, View.chars_ofChars,
        String.toList_append, Int.toNat_natCast, ← String.length_toList, List.drop_left]
    · rw [View.offset_drop, View.length]
      simp only [View.of, View.ofChars, View.offset, List.size_toArray, String.toList_append,
        List.length_append, String.length_toList]
      omega

def nested : Meanings Unit :=
  fun _ => .ok (.alt (.lift2 .pair (.andThen (.char "(") (.reference ())) (.char ")"))
    (.span .digit))

theorem nested_sameRuns :
    ((View.of "x((7))").drop 1).text = (View.of "((7))").text ∧
    nested.SameRuns (.reference ()) 1 ((View.of "x((7))").drop 1) (View.of "((7))") ∧
    ∃ value rest, nested.run 1 (.reference ()) (View.of "((7))") = .matched value rest := by
  have same : ((View.of "x((7))").drop 1).text = (View.of "((7))").text := by decide
  exact ⟨same, (nested.sameRuns_of_text (.reference ())).1 _ _ same, _, _, by cbv⟩

end Meanings

end Descent
