import Descent.Distinct

/-!
Under a sameness that is an equivalence, a list has as many different elements as any selection
from it that leaves nothing out and takes nothing twice, so their number is the same in any order.
-/

namespace Descent

structure EquivalenceOn {α : Type} (domain : α → Prop) (same : α → α → Bool) : Prop where
  refl : ∀ {element}, domain element → same element element = true
  symm : ∀ {first second}, domain first → domain second →
    same first second = true → same second first = true
  trans : ∀ {first second third}, domain first → domain second → domain third →
    same first second = true → same second third = true → same first third = true

structure Selection {α : Type} (same : α → α → Bool) (picked elements : List α) : Prop where
  subset : picked ⊆ elements
  apart : picked.Pairwise fun first second => same first second = false
  complete : ∀ element ∈ elements, ∃ other ∈ picked, same element other = true

variable {α : Type} {domain : α → Prop} {same : α → α → Bool} {elements picked others : List α}

namespace EquivalenceOn

/-- Elements that are pairwise apart have different counterparts. -/
theorem length_le (equivalence : EquivalenceOn domain same)
    (inside : ∀ element ∈ picked, domain element) (othersInside : ∀ other ∈ others, domain other)
    (apart : picked.Pairwise fun first second => same first second = false)
    (counterpart : ∀ element ∈ picked, ∃ other ∈ others, same element other = true) :
    picked.length ≤ others.length := by
  induction picked generalizing others with
  | nil => exact Nat.zero_le _
  | cons element rest ih =>
    rw [List.forall_mem_cons] at inside
    rw [List.pairwise_cons] at apart
    obtain ⟨⟨other, among, alike⟩, restCounterpart⟩ := List.forall_mem_cons.mp counterpart
    obtain ⟨before, after, rfl⟩ := List.append_of_mem among
    have shorter : rest.length ≤ (before ++ after).length := by
      apply ih inside.2 _ apart.2
      · intro later member
        obtain ⟨partner, present, partnered⟩ := restCounterpart later member
        refine ⟨partner, ?_, partnered⟩
        rcases List.mem_append.mp present with earlier | here | ⟨_, behind⟩
        · exact List.mem_append_left after earlier
        · -- The element and a later one cannot have the same counterpart.
          have back := equivalence.symm (inside.2 later member) (othersInside other among) partnered
          have joined := equivalence.trans inside.1 (othersInside other among)
            (inside.2 later member) alike back
          rw [apart.1 later member] at joined
          cases joined
        · exact List.mem_append_right before behind
      · intro other member
        apply othersInside
        rcases List.mem_append.mp member with earlier | behind
        · exact List.mem_append_left _ earlier
        · exact List.mem_append_right before (List.mem_cons_of_mem _ behind)
    simp only [List.length_append, List.length_cons] at shorter ⊢
    omega

theorem exists_selection (equivalence : EquivalenceOn domain same)
    (inside : ∀ element ∈ elements, domain element) :
    ∃ picked, Selection same picked elements ∧ picked.length = distinctCount same elements := by
  induction elements with
  | nil => exact ⟨[], ⟨List.Subset.refl _, .nil, by simp⟩, rfl⟩
  | cons element rest ih =>
    rw [List.forall_mem_cons] at inside
    obtain ⟨picked, selection, length⟩ := ih inside.2
    by_cases again : rest.any (same element) = true
    · refine ⟨picked, ⟨List.subset_cons_of_subset _ selection.subset, selection.apart, ?_⟩, ?_⟩
      · rw [List.forall_mem_cons]
        refine ⟨?_, selection.complete⟩
        obtain ⟨later, member, alike⟩ := List.any_eq_true.mp again
        obtain ⟨other, among, joined⟩ := selection.complete later member
        exact ⟨other, among, equivalence.trans inside.1 (inside.2 later member)
          (inside.2 other (selection.subset among)) alike joined⟩
      · rw [distinctCount, if_pos again, Nat.zero_add, length]
    · refine ⟨element :: picked, ⟨List.cons_subset_cons _ selection.subset, ?_, ?_⟩, ?_⟩
      · rw [List.pairwise_cons]
        refine ⟨fun other among => ?_, selection.apart⟩
        rw [List.any_eq_true, not_exists] at again
        exact Bool.eq_false_iff.mpr fun alike => again other ⟨selection.subset among, alike⟩
      · rw [List.forall_mem_cons]
        refine ⟨⟨element, List.mem_cons_self, equivalence.refl inside.1⟩, fun later member => ?_⟩
        obtain ⟨other, among, alike⟩ := selection.complete later member
        exact ⟨other, List.mem_cons_of_mem _ among, alike⟩
      · rw [distinctCount, if_neg again, List.length_cons, length, Nat.add_comm]

theorem length_eq_distinctCount (equivalence : EquivalenceOn domain same)
    (inside : ∀ element ∈ elements, domain element) (selection : Selection same picked elements) :
    picked.length = distinctCount same elements := by
  obtain ⟨others, otherSelection, length⟩ := equivalence.exists_selection inside
  have pickedInside : ∀ element ∈ picked, domain element :=
    fun element member => inside element (selection.subset member)
  have othersInside : ∀ other ∈ others, domain other :=
    fun other member => inside other (otherSelection.subset member)
  rw [← length]
  apply Nat.le_antisymm
  · exact equivalence.length_le pickedInside othersInside selection.apart
      fun element member => otherSelection.complete element (selection.subset member)
  · exact equivalence.length_le othersInside pickedInside otherSelection.apart
      fun other member => selection.complete other (otherSelection.subset member)

theorem distinctCount_perm (equivalence : EquivalenceOn domain same)
    (inside : ∀ element ∈ elements, domain element) (perm : elements.Perm others) :
    distinctCount same elements = distinctCount same others := by
  obtain ⟨picked, selection, length⟩ := equivalence.exists_selection inside
  have reordered : Selection same picked others :=
    ⟨fun _ member => perm.mem_iff.mp (selection.subset member), selection.apart,
      fun element member => selection.complete element (perm.mem_iff.mpr member)⟩
  rw [← length]
  exact equivalence.length_eq_distinctCount
    (fun element member => inside element (perm.mem_iff.mpr member)) reordered

end EquivalenceOn

end Descent
