import Descent.Proofs.Pattern.Likeness

/-!
How a run ends does not depend on how many references it was allowed to enter at once, as long as
it ends.
-/

namespace Descent

namespace Value

theorem eq_of_alike {value other : Value} (alike : value.Alike Eq other) : value = other := by
  induction value generalizing other with
  | list items ih =>
    cases alike with
    | list others =>
      have both := (List.forall₂_and_left items _).mpr ⟨fun item inside => @ih item inside, others⟩
      have same := both.imp fun item other agree => agree.1 agree.2
      rw [List.forall₂_eq_eq_eq] at same
      rw [same]
  | constantly result ih =>
    cases alike with
    | constantly other => rw [ih other]
  | pairing left ih =>
    cases alike with
    | pairing other => rw [ih other]
  | adding left ih =>
    cases alike with
    | adding other => rw [ih other]
  | view found =>
    cases alike with
    | view same => rw [same]
  | _ => cases alike; rfl

end Value

namespace Meanings

variable {κ : Type} {meanings : Meanings κ} {pattern : Pattern κ} {view : View}

def Mentions (meanings : Meanings κ) (pattern : Pattern κ) (view : View) : Prop :=
  view ∈ pattern.views ∨ ∃ target definition, meanings target = .ok definition ∧
    view ∈ definition.views

theorem enter_alike {like : Likeness} {fuel more : Nat}
    (enough : fuel = more ∨ fuel ≤ more ∧ like.lost none)
    (fixed : ∀ target definition, meanings target = .ok definition →
      ∀ view ∈ definition.views, like.held view view) (target : κ) :
    (meanings.enter fuel target).Alike like (Value.Alike like.held)
      (meanings.enter more target) := by
  induction fuel generalizing more target with
  | zero =>
    intro first second _
    rcases enough with rfl | ⟨_, lost⟩
    · exact .exhausted
    · exact .lostRun lost
  | succ fuel ih =>
    cases more with
    | zero => omega
    | succ more =>
      have less : fuel = more ∨ fuel ≤ more ∧ like.lost none :=
        enough.imp Nat.succ.inj fun both => ⟨Nat.le_of_succ_le_succ both.1, both.2⟩
      rw [enter, enter]
      split
      · rename_i definition meant
        exact Pattern.eval_alike (ih less) (fixed target definition meant)
      · exact fun _ _ _ => .fault _

theorem eval_alike {like : Likeness} {fuel more : Nat}
    (enough : fuel = more ∨ fuel ≤ more ∧ like.lost none)
    (fixed : ∀ view, meanings.Mentions pattern view → like.held view view) :
    (pattern.eval (meanings.enter fuel)).Alike like (Value.Alike like.held)
      (pattern.eval (meanings.enter more)) := by
  refine Pattern.eval_alike (enter_alike enough ?_) fun view inside => ?_
  · exact fun target definition meant view inside =>
      fixed view (.inr ⟨target, definition, meant, inside⟩)
  · exact fixed view (.inl inside)

/-- The run ends in this reply once it may enter enough references at once. -/
def Ends (meanings : Meanings κ) (pattern : Pattern κ) (view : View) (reply : Reply Value) : Prop :=
  reply ≠ .exhausted ∧ ∃ fuel, pattern.eval (meanings.enter fuel) view = reply

theorem ends_of_matched {fuel : Nat} {value : Value} {rest : View}
    (parsed : pattern.eval (meanings.enter fuel) view = .matched value rest) :
    meanings.Ends pattern view (.matched value rest) :=
  ⟨by simp, fuel, parsed⟩

theorem ends_of_noMatch {fuel : Nat} (refused : pattern.eval (meanings.enter fuel) view = .noMatch) :
    meanings.Ends pattern view .noMatch :=
  ⟨by simp, fuel, refused⟩

theorem ends_of_fault {fuel : Nat} {cause : Fault}
    (raised : pattern.eval (meanings.enter fuel) view = .fault cause) :
    meanings.Ends pattern view (.fault cause) :=
  ⟨by simp, fuel, raised⟩

theorem eval_of_le {fuel more : Nat} (enough : fuel ≤ more)
    (ended : pattern.eval (meanings.enter fuel) view ≠ .exhausted) :
    pattern.eval (meanings.enter fuel) view = pattern.eval (meanings.enter more) view := by
  have alike := @eval_alike _ meanings pattern (.patient _ View.lasting_true) _ _
    (.inr ⟨enough, rfl⟩) fun _ _ => rfl
  exact Reply.eq_of_alike Value.eq_of_alike (alike view view ⟨rfl, trivial⟩) ended

theorem Ends.unique {reply other : Reply Value} (ends : meanings.Ends pattern view reply)
    (endsToo : meanings.Ends pattern view other) : reply = other := by
  obtain ⟨ended, fuel, rfl⟩ := ends
  obtain ⟨endedToo, more, rfl⟩ := endsToo
  rcases Nat.le_total fuel more with enough | enough
  · exact eval_of_le enough ended
  · exact (eval_of_le enough endedToo).symm

/-- Two runs whose answers are related, unless both are cut short, end in related replies, and one of
them ends if the other one does. -/
theorem ends_related {first second : View} {related : Reply Value → Reply Value → Prop}
    (ended : ∀ {reply other}, related reply other → reply ≠ .exhausted ∧ other ≠ .exhausted)
    (answers : ∀ fuel, pattern.eval (meanings.enter fuel) first = .exhausted ∧
        pattern.eval (meanings.enter fuel) second = .exhausted ∨
      related (pattern.eval (meanings.enter fuel) first)
        (pattern.eval (meanings.enter fuel) second)) :
    ((∃ reply, meanings.Ends pattern first reply) ↔ ∃ other, meanings.Ends pattern second other) ∧
      ∀ reply other, meanings.Ends pattern first reply → meanings.Ends pattern second other →
        related reply other := by
  refine ⟨⟨?_, ?_⟩, ?_⟩
  · rintro ⟨reply, finished, fuel, rfl⟩
    obtain ⟨exhausted, _⟩ | answers := answers fuel
    · exact absurd exhausted finished
    · exact ⟨_, (ended answers).2, fuel, rfl⟩
  · rintro ⟨other, finished, fuel, rfl⟩
    obtain ⟨_, exhausted⟩ | answers := answers fuel
    · exact absurd exhausted finished
    · exact ⟨_, (ended answers).1, fuel, rfl⟩
  · rintro reply other ⟨finished, fuel, rfl⟩ ends
    obtain ⟨exhausted, _⟩ | answers := answers fuel
    · exact absurd exhausted finished
    · have same : pattern.eval (meanings.enter fuel) second = other :=
        Ends.unique ⟨(ended answers).2, fuel, rfl⟩ ends
      exact same ▸ answers

end Meanings

end Descent
