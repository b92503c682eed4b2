import Descent.Proofs.Pattern.Endings
import Descent.Proofs.Pattern.Pairs
import Mathlib

/-!
A run depends on what a reference stands for only if the pattern mentions it, or if something that
the pattern relies on does. Where a reference stands for nothing, a run that does not end in the
fault of entering it ends in the same way whatever the reference stands for.
-/

namespace Descent

namespace Pattern

variable {κ : Type}

mutual

def references : Pattern κ → List κ
  | map _ pattern => pattern.references
  | always _ pattern => pattern.references
  | ap function argument => function.references ++ argument.references
  | lazyAp function argument => function.references ++ argument.references
  | alt first second => first.references ++ second.references
  | andThen first second => first.references ++ second.references
  | skip first second => first.references ++ second.references
  | lift2 _ first second => first.references ++ second.references
  | sequence patterns => referencesAll patterns
  | guard _ pattern => pattern.references
  | many element => element.references
  | sepBy separator element => separator.references ++ element.references
  | reference target => [target]
  | _ => []

def referencesAll : List (Pattern κ) → List κ
  | [] => []
  | pattern :: rest => pattern.references ++ referencesAll rest

end

variable {pattern first second : Pattern κ} {join : Value → Value → Except Fault Value}
variable {enter again : κ → Parser Value}

theorem Pairs.references_eq (pairs : Pairs pattern join first second) :
    pattern.references = first.references ++ second.references := by
  cases pairs <;> rfl

theorem eval_congr (agree : ∀ target ∈ pattern.references, enter target = again target) :
    pattern.eval enter = pattern.eval again := by
  induction pattern using induct_pairs with
  | atomic pattern atomic => cases atomic <;> rfl
  | map transform pattern ih => rw [eval, eval, ih agree]
  | always value pattern ih => rw [eval, eval, ih agree]
  | guard check pattern ih => rw [eval, eval, ih agree]
  | pair pattern join first second pairs firsts seconds =>
    rw [pairs.references_eq] at agree
    obtain ⟨left, right⟩ := List.forall_mem_append.mp agree
    rw [pairs.eval_eq, pairs.eval_eq, firsts left, seconds right]
  | alt first second firsts seconds =>
    obtain ⟨left, right⟩ := List.forall_mem_append.mp agree
    rw [eval, eval, firsts left, seconds right]
  | many element ih => rw [eval, eval, ih agree]
  | sepBy separator element separators elements =>
    obtain ⟨left, right⟩ := List.forall_mem_append.mp agree
    rw [eval, eval, separators left, elements right]
  | reference target => exact agree target (List.mem_singleton_self target)

end Pattern

def Likeness.upTo (lost : Fault → Prop) : Likeness :=
  { patient (fun _ => True) View.lasting_true with
    lost := fun ending => ∃ cause, ending = some cause ∧ lost cause }

namespace Meanings

variable {κ : Type} {first second : Meanings κ} {pattern : Pattern κ}
variable {view : View} {reply : Reply Value} {lost : Fault → Prop}

inductive Relies (meanings : Meanings κ) (pattern : Pattern κ) : κ → Prop
  | here {target} : target ∈ pattern.references → Relies meanings pattern target
  | through {middle definition target} : Relies meanings pattern middle →
      meanings middle = .ok definition → target ∈ definition.references →
      Relies meanings pattern target

theorem enter_congr (agree : ∀ target, first.Relies pattern target → first target = second target)
    (fuel : Nat) {target : κ} (relies : first.Relies pattern target) :
    first.enter fuel target = second.enter fuel target := by
  induction fuel generalizing target with
  | zero => rfl
  | succ fuel ih =>
    rw [enter, enter, ← agree target relies]
    split
    · rename_i definition meant
      exact Pattern.eval_congr fun inner inside => ih (.through relies meant inside)
    · rfl

theorem eval_congr (agree : ∀ target, first.Relies pattern target → first target = second target)
    (fuel : Nat) : pattern.eval (first.enter fuel) = pattern.eval (second.enter fuel) :=
  Pattern.eval_congr fun _ inside => enter_congr agree fuel (.here inside)

theorem ends_congr (agree : ∀ target, first.Relies pattern target → first target = second target) :
    first.Ends pattern view reply ↔ second.Ends pattern view reply := by
  simp only [Ends, eval_congr agree]

theorem enter_alike_upTo
    (agree : ∀ target, first target = second target ∨ ∃ cause, first target = .error cause ∧ lost cause)
    (fuel : Nat) (target : κ) :
    (first.enter fuel target).Alike (.upTo lost) (Value.Alike Eq) (second.enter fuel target) := by
  induction fuel generalizing target with
  | zero => exact fun _ _ _ => .exhausted
  | succ fuel ih =>
    rcases agree target with same | ⟨cause, raised, gone⟩
    · rw [enter, enter, same]
      split
      · exact Pattern.eval_alike ih fun _ _ => rfl
      · exact fun _ _ _ => .fault _
    · rw [enter, raised]
      exact fun _ _ _ => .lostFault ⟨cause, rfl, gone⟩

open Classical in
noncomputable def elsewhere (first : Meanings κ) (pattern : Pattern κ) (second : Meanings κ) : Meanings κ :=
  fun target => if first.Relies pattern target then first target else second target

theorem elsewhere_of_relies {target : κ} (relies : first.Relies pattern target) :
    first target = first.elsewhere pattern second target := by
  rw [elsewhere, if_pos relies]

/-- More meanings change no run that did not end for want of them. -/
theorem Ends.kept
    (agree : ∀ target, first.Relies pattern target →
      first target = second target ∨ ∃ cause, first target = .error cause ∧ lost cause)
    (ends : first.Ends pattern view reply) (kept : ∀ cause, lost cause → reply ≠ .fault cause) :
    second.Ends pattern view reply := by
  have others : ∀ target, first.elsewhere pattern second target = second target ∨
      ∃ cause, first.elsewhere pattern second target = .error cause ∧ lost cause := by
    intro target
    by_cases relies : first.Relies pattern target
    · rw [← elsewhere_of_relies relies]
      exact agree target relies
    · exact .inl (if_neg relies)
  obtain ⟨ended, fuel, parsed⟩ := (ends_congr fun _ => elsewhere_of_relies).mp ends
  have alike : (pattern.eval ((first.elsewhere pattern second).enter fuel)).Alike (.upTo lost)
      (Value.Alike Eq) (pattern.eval (second.enter fuel)) :=
    Pattern.eval_alike (enter_alike_upTo others fuel) fun _ _ => rfl
  refine ⟨ended, fuel, ?_⟩
  rw [← parsed] at kept ⊢
  symm
  refine (alike view view ⟨rfl, trivial⟩).eq And.left Value.eq_of_alike ?_ ?_
  · rintro cause ⟨_, same, gone⟩
    cases same
    exact kept _ gone
  · rintro ⟨_, impossible, _⟩
    cases impossible

end Meanings

end Descent
