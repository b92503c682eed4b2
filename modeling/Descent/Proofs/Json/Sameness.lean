import Descent.Proofs.Json.Contents
import Mathlib.Data.List.Perm.Subperm

/-!
Values that are the same up to the order of members hold the same texts.
-/

namespace Descent.Json

theorem mem_texts_arr {text : String} {values : List Json} :
    text ∈ (arr values).texts ↔ ∃ value ∈ values, text ∈ value.texts := by
  simp only [texts, parts, List.flatMap_cons, ownTexts, List.nil_append, List.mem_flatMap,
    mem_partsAll]
  constructor
  · rintro ⟨part, ⟨value, inside, deep⟩, own⟩
    exact ⟨value, inside, part, deep, own⟩
  · rintro ⟨value, inside, part, deep, own⟩
    exact ⟨part, ⟨value, inside, deep⟩, own⟩

theorem mem_texts_obj {text : String} {members : List (String × Json)} :
    text ∈ (obj members).texts ↔
      text ∈ members.map Prod.fst ∨ ∃ member ∈ members, text ∈ member.2.texts := by
  simp only [texts, parts, List.flatMap_cons, ownTexts, List.mem_append, List.mem_flatMap,
    mem_partsMembers]
  constructor
  · rintro (key | ⟨part, ⟨member, inside, deep⟩, own⟩)
    · exact .inl key
    · exact .inr ⟨member, inside, part, deep, own⟩
  · rintro (key | ⟨member, inside, part, deep, own⟩)
    · exact .inl key
    · exact .inr ⟨part, ⟨member, inside, deep⟩, own⟩

theorem DistinctKeys.of_subset {value part : Json} (distinct : value.DistinctKeys)
    (subset : part.parts ⊆ value.parts) : part.DistinctKeys :=
  fun members inside => distinct members (subset inside)

section Members

variable {α : Type} {key : String} {value : α} {members : List (String × α)}

theorem mem_of_lookup (found : members.lookup key = some value) : (key, value) ∈ members := by
  obtain ⟨before, after, rfl, _⟩ := List.lookup_eq_some_iff.mp found
  exact List.mem_append_right before List.mem_cons_self

theorem lookup_of_mem (distinct : (members.map Prod.fst).Nodup) (inside : (key, value) ∈ members) :
    members.lookup key = some value := by
  induction members with
  | nil => exact absurd inside List.not_mem_nil
  | cons member rest ih =>
    rw [List.map_cons, List.nodup_cons] at distinct
    rcases List.mem_cons.mp inside with rfl | later
    · exact List.lookup_cons_self
    · have other : key ≠ member.1 := by
        rintro rfl
        exact distinct.1 (List.mem_map.mpr ⟨_, later, rfl⟩)
      rw [List.lookup_cons, beq_false_of_ne other]
      exact ih distinct.2 later

end Members

theorem exists_of_sameAll {firsts seconds : List Json} (equal : sameAll firsts seconds = true)
    {second : Json} (inside : second ∈ seconds) : ∃ first ∈ firsts, same first second = true := by
  induction firsts generalizing seconds with
  | nil =>
    cases seconds with
    | nil => exact absurd inside List.not_mem_nil
    | cons => simp [sameAll] at equal
  | cons first rest ih =>
    cases seconds with
    | nil => exact absurd inside List.not_mem_nil
    | cons other others =>
      rw [sameAll, Bool.and_eq_true] at equal
      rcases List.mem_cons.mp inside with rfl | later
      · exact ⟨first, List.mem_cons_self, equal.1⟩
      · obtain ⟨found, among, same⟩ := ih equal.2 later
        exact ⟨found, List.mem_cons_of_mem _ among, same⟩

theorem sameMembers_iff {members others : List (String × Json)} :
    sameMembers members others = true ↔
      ∀ member ∈ members, ∃ other, others.lookup member.1 = some other ∧
        same member.2 other = true := by
  induction members with
  | nil => simp [sameMembers]
  | cons member rest ih =>
    rw [sameMembers, Bool.and_eq_true, ih, List.forall_mem_cons]
    refine and_congr_left fun _ => ?_
    cases others.lookup member.1 <;> simp

/-- Of two objects with as many members each, all keys of one being keys of the other, neither has
a key of its own. -/
theorem exists_of_sameMembers {members others : List (String × Json)}
    (distinct : (members.map Prod.fst).Nodup) (otherDistinct : (others.map Prod.fst).Nodup)
    (length : members.length = others.length) (equal : sameMembers members others = true)
    {other : String × Json} (inside : other ∈ others) :
    ∃ member ∈ members, member.1 = other.1 ∧ same member.2 other.2 = true := by
  have counterpart := sameMembers_iff.mp equal
  have subset : members.map Prod.fst ⊆ others.map Prod.fst := by
    intro key among
    obtain ⟨member, inside, rfl⟩ := List.mem_map.mp among
    obtain ⟨value, found, _⟩ := counterpart member inside
    exact List.mem_map.mpr ⟨_, mem_of_lookup found, rfl⟩
  have perm : (members.map Prod.fst).Perm (others.map Prod.fst) := by
    apply (List.subperm_of_subset distinct subset).perm_of_length_le
    simp only [List.length_map, length, Nat.le_refl]
  obtain ⟨member, among, key⟩ := List.mem_map.mp (perm.mem_iff.mpr (List.mem_map_of_mem inside))
  obtain ⟨value, found, same⟩ := counterpart member among
  rw [key, lookup_of_mem otherDistinct inside] at found
  cases found
  exact ⟨member, among, key, same⟩

theorem texts_subset_of_same {first second : Json} (distinct : first.DistinctKeys)
    (otherDistinct : second.DistinctKeys) (equal : first.same second = true) :
    second.texts ⊆ first.texts := by
  intro text inside
  induction first generalizing second with
  | null => cases second <;> simp_all [same]
  | bool => cases second <;> simp_all [same, texts, parts, ownTexts]
  | num => cases second <;> simp_all [same, texts, parts, ownTexts]
  | str => cases second <;> simp_all [same]
  | arr values ih =>
    cases second with
    | arr others =>
      rw [same] at equal
      obtain ⟨other, among, deep⟩ := mem_texts_arr.mp inside
      obtain ⟨value, counterpart, same⟩ := exists_of_sameAll equal among
      refine mem_texts_arr.mpr ⟨value, counterpart, ?_⟩
      exact ih value counterpart (distinct.of_subset (parts_subset_arr counterpart))
        (otherDistinct.of_subset (parts_subset_arr among)) same deep
    | _ => simp [same] at equal
  | obj members ih =>
    cases second with
    | obj others =>
      rw [same, Bool.and_eq_true, beq_iff_eq] at equal
      have counterpart := fun {other} (among : other ∈ others) =>
        exists_of_sameMembers (distinct members (mem_parts_self _))
          (otherDistinct others (mem_parts_self _)) equal.1 equal.2 among
      rcases mem_texts_obj.mp inside with key | ⟨other, among, deep⟩
      · obtain ⟨other, among, rfl⟩ := List.mem_map.mp key
        obtain ⟨member, present, key, _⟩ := counterpart among
        exact key ▸ key_mem_texts present
      · obtain ⟨member, present, _, same⟩ := counterpart among
        refine mem_texts_obj.mpr (.inr ⟨member, present, ?_⟩)
        exact ih member present (distinct.of_subset (parts_subset_obj present))
          (otherDistinct.of_subset (parts_subset_obj among)) same deep
    | _ => simp [same] at equal

end Descent.Json
