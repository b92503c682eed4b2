import Descent.Proofs.Pattern.Endings
import Mathlib

/-!
How many references a run that ends may have entered at once. If some reference on some view needs
a number of entries, then each smaller number is needed as well, by some reference on some later
view. So there are no more numbers than pairs of a reference and a view.
-/

namespace Descent

namespace Meanings

variable {κ : Type} {meanings : Meanings κ} {pattern : Pattern κ} {target : κ} {view point : View}
variable {fuel more : Nat}

def Needs (meanings : Meanings κ) (fuel : Nat) (target : κ) (point : View) : Prop :=
  meanings.enter fuel target point = .exhausted ∧ meanings.enter (fuel + 1) target point ≠ .exhausted

def Settled (meanings : Meanings κ) (view : View) (fuel : Nat) : Prop :=
  ∀ target point, view.Reaches point → ¬meanings.Needs fuel target point

theorem enter_of_le (enough : fuel ≤ more) (ended : meanings.enter fuel target point ≠ .exhausted) :
    meanings.enter fuel target point = meanings.enter more target point := by
  have entered : (Pattern.reference target).eval (meanings.enter fuel) point ≠ .exhausted := ended
  exact eval_of_le enough entered

theorem Needs.le (needs : meanings.Needs fuel target point)
    (needsToo : meanings.Needs more target point) : more ≤ fuel := by
  by_contra fewer
  have enough : fuel + 1 ≤ more := by omega
  exact needs.2 ((enter_of_le enough needs.2).trans needsToo.1)

theorem Needs.stands (needs : meanings.Needs (fuel + 1) target point) :
    ∃ definition, meanings target = .ok definition := by
  cases meant : meanings target with
  | ok definition => exact ⟨definition, rfl⟩
  | error cause =>
    have exhausted := needs.1
    rw [enter, meant] at exhausted
    cases exhausted

theorem Settled.eval (settled : meanings.Settled view fuel) (reaches : view.Reaches point)
    (exhausted : pattern.eval (meanings.enter fuel) point = .exhausted) :
    pattern.eval (meanings.enter (fuel + 1)) point = .exhausted := by
  have lasting : View.Lasting view.Reaches := fun _ _ further reached => reached.trans further
  have entries (target : κ) : (meanings.enter (fuel + 1) target).Alike
      (.patient view.Reaches lasting) (Value.Alike Eq) (meanings.enter fuel target) := by
    rintro point _ ⟨rfl, reached⟩
    by_cases ended : meanings.enter (fuel + 1) target point = .exhausted
    · rw [ended]
      exact .lostRun rfl
    · have before : meanings.enter fuel target point ≠ .exhausted :=
        fun exhausted => settled target point reached ⟨exhausted, ended⟩
      rw [← enter_of_le (Nat.le_succ fuel) before]
      exact enter_alike (.inl rfl) (fun _ _ _ _ _ => rfl) target point point ⟨rfl, reached⟩
  have alike : (pattern.eval (meanings.enter (fuel + 1))).Alike
      (.patient view.Reaches lasting) (Value.Alike Eq) (pattern.eval (meanings.enter fuel)) :=
    Pattern.eval_alike entries fun _ _ => rfl
  by_contra ended
  have same := Reply.eq_of_alike Value.eq_of_alike (alike point point ⟨rfl, reaches⟩) ended
  exact ended (same.trans exhausted)

theorem Settled.succ (settled : meanings.Settled view fuel) : meanings.Settled view (fuel + 1) := by
  rintro target point reaches needs
  obtain ⟨definition, meant⟩ := needs.stands
  obtain ⟨exhausted, ended⟩ := needs
  rw [enter, meant] at exhausted ended
  exact ended (settled.eval reaches exhausted)

theorem Settled.of_le (settled : meanings.Settled view fuel) (enough : fuel ≤ more) :
    meanings.Settled view more := by
  induction enough with
  | refl => exact settled
  | step _ ih => exact ih.succ

theorem Settled.eval_of_le (settled : meanings.Settled view fuel) (enough : fuel ≤ more)
    (exhausted : pattern.eval (meanings.enter fuel) view = .exhausted) :
    pattern.eval (meanings.enter more) view = .exhausted := by
  induction enough with
  | refl => exact exhausted
  | step less ih => exact (settled.of_le less).eval (.refl view) ih

variable {targets : Finset κ}

theorem settled_enough
    (all : ∀ target definition, meanings target = .ok definition → target ∈ targets) (view : View) :
    meanings.Settled view (enough targets.card view) := by
  by_contra unsettled
  have needed (index : Fin (enough targets.card view)) :
      ∃ pair : targets × Fin (view.length + 1), ∃ point, view.Reaches point ∧
        point.length = pair.2 ∧ meanings.Needs (index + 1) pair.1 point := by
    have before : ¬meanings.Settled view (index + 1) :=
      fun settled => unsettled (settled.of_le index.isLt)
    obtain ⟨target, point, reaches, needs⟩ :
        ∃ target point, view.Reaches point ∧ meanings.Needs (index + 1) target point := by
      simpa only [Settled, not_forall, not_not, exists_prop] using before
    obtain ⟨definition, meant⟩ := needs.stands
    have shorter : point.length < view.length + 1 := Nat.lt_succ_of_le reaches.length_le
    exact ⟨(⟨target, all target definition meant⟩, ⟨_, shorter⟩), point, reaches, rfl, needs⟩
  choose pair point reaches length needs using needed
  have fewer : Fintype.card (targets × Fin (view.length + 1)) <
      Fintype.card (Fin (enough targets.card view)) := by
    rw [Fintype.card_prod, Fintype.card_coe, Fintype.card_fin, Fintype.card_fin]
    exact Nat.lt_succ_self _
  obtain ⟨first, second, distinct, same⟩ := Fintype.exists_ne_map_eq_of_card_lt pair fewer
  have samePoint : point first = point second :=
    (reaches first).eq_of_length (reaches second) (by rw [length, length, same])
  have firstNeeds := needs first
  rw [same, samePoint] at firstNeeds
  have secondNeeds := needs second
  have equal := Nat.le_antisymm (secondNeeds.le firstNeeds) (firstNeeds.le secondNeeds)
  exact distinct (Fin.ext (Nat.succ.inj equal))

/-- The bound on the entries cuts no run short that would end. -/
theorem run_eq_iff_ends {count : Nat} {reply : Reply Value}
    (all : ∀ target definition, meanings target = .ok definition → target ∈ targets)
    (few : targets.card ≤ count) (ended : reply ≠ .exhausted) :
    meanings.run count pattern view = reply ↔ meanings.Ends pattern view reply := by
  constructor
  · intro run
    exact ⟨ended, _, run⟩
  · rintro ⟨_, fuel, rfl⟩
    have least : enough targets.card view ≤ enough count view :=
      Nat.succ_le_succ (Nat.mul_le_mul_right _ few)
    have settled := (settled_enough all view).of_le least
    have finished : meanings.run count pattern view ≠ .exhausted := by
      intro exhausted
      have never := settled.eval_of_le (Nat.le_max_right fuel _) exhausted
      exact ended ((eval_of_le (Nat.le_max_left fuel _) ended).trans never)
    exact Ends.unique ⟨finished, _, rfl⟩ ⟨ended, fuel, rfl⟩

end Meanings

end Descent
