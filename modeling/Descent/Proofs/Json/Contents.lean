import Descent.Json.Basic

/-!
What a JSON value holds at any depth: numbers, texts and the keys of its objects.
-/

namespace Descent.Json

@[induction_eliminator]
theorem induct {motive : Json → Prop} (null : motive .null)
    (bool : ∀ value, motive (.bool value)) (num : ∀ value, motive (.num value))
    (str : ∀ value, motive (.str value))
    (arr : ∀ values, (∀ value ∈ values, motive value) → motive (.arr values))
    (obj : ∀ members, (∀ member ∈ members, motive member.2) → motive (.obj members)) :
    ∀ value, motive value
  | .null => null
  | .bool value => bool value
  | .num value => num value
  | .str value => str value
  | .arr values => arr values fun value _ => induct null bool num str arr obj value
  | .obj members => obj members fun member _ => induct null bool num str arr obj member.2
  termination_by value => sizeOf value
  decreasing_by
    · simp_wf
      have := List.sizeOf_lt_of_mem ‹_›
      omega
    · simp_wf
      have := List.sizeOf_lt_of_mem ‹member ∈ members›
      cases member
      simp only [Prod.mk.sizeOf_spec] at this ⊢
      omega

mutual

def parts : Json → List Json
  | null => [null]
  | bool value => [bool value]
  | num value => [num value]
  | str value => [str value]
  | arr values => arr values :: partsAll values
  | obj members => obj members :: partsMembers members

def partsAll : List Json → List Json
  | [] => []
  | value :: rest => parts value ++ partsAll rest

def partsMembers : List (String × Json) → List Json
  | [] => []
  | (_, value) :: rest => parts value ++ partsMembers rest

end

def ownNumbers : Json → List Int
  | num value => [value]
  | _ => []

def ownTexts : Json → List String
  | str value => [value]
  | obj members => members.map Prod.fst
  | _ => []

def numbers (value : Json) : List Int :=
  value.parts.flatMap ownNumbers

def texts (value : Json) : List String :=
  value.parts.flatMap ownTexts

/-- No object in the value has one key twice, as it must be for a mapping. -/
def DistinctKeys (value : Json) : Prop :=
  ∀ members, obj members ∈ value.parts → (members.map Prod.fst).Nodup

theorem mem_partsAll {part : Json} {values : List Json} :
    part ∈ partsAll values ↔ ∃ value ∈ values, part ∈ value.parts := by
  induction values with
  | nil => simp [partsAll]
  | cons value rest ih => simp [partsAll, ih]

theorem mem_partsMembers {part : Json} {members : List (String × Json)} :
    part ∈ partsMembers members ↔ ∃ member ∈ members, part ∈ member.2.parts := by
  induction members with
  | nil => simp [partsMembers]
  | cons member rest ih => simp [partsMembers, ih]

theorem mem_parts_arr {part : Json} {values : List Json} :
    part ∈ (arr values).parts ↔ part = arr values ∨ ∃ value ∈ values, part ∈ value.parts := by
  rw [parts, List.mem_cons, mem_partsAll]

theorem mem_parts_obj {part : Json} {members : List (String × Json)} :
    part ∈ (obj members).parts ↔
      part = obj members ∨ ∃ member ∈ members, part ∈ member.2.parts := by
  rw [parts, List.mem_cons, mem_partsMembers]

theorem mem_parts_self (value : Json) : value ∈ value.parts := by
  cases value <;> simp [parts]

theorem parts_subset_arr {value : Json} {values : List Json} (inside : value ∈ values) :
    value.parts ⊆ (arr values).parts :=
  fun _ part => mem_parts_arr.mpr (.inr ⟨value, inside, part⟩)

theorem parts_subset_obj {member : String × Json} {members : List (String × Json)}
    (inside : member ∈ members) : member.2.parts ⊆ (obj members).parts :=
  fun _ part => mem_parts_obj.mpr (.inr ⟨member, inside, part⟩)

theorem mem_numbers {value : Json} {number : Int} :
    number ∈ value.numbers ↔ num number ∈ value.parts := by
  rw [numbers, List.mem_flatMap]
  constructor
  · rintro ⟨part, inside, own⟩
    cases part <;> simp only [ownNumbers, List.mem_singleton, List.not_mem_nil] at own
    exact own ▸ inside
  · intro inside
    exact ⟨num number, inside, List.mem_singleton_self number⟩

theorem mem_texts {value : Json} {text : String} :
    text ∈ value.texts ↔ str text ∈ value.parts ∨
      ∃ members, obj members ∈ value.parts ∧ text ∈ members.map Prod.fst := by
  rw [texts, List.mem_flatMap]
  constructor
  · rintro ⟨part, inside, own⟩
    cases part with
    | str other => exact .inl (List.mem_singleton.mp own ▸ inside)
    | obj members => exact .inr ⟨members, inside, own⟩
    | _ => exact absurd own List.not_mem_nil
  · rintro (inside | ⟨members, inside, key⟩)
    · exact ⟨str text, inside, List.mem_singleton_self text⟩
    · exact ⟨obj members, inside, key⟩

theorem texts_subset_of_parts {first second : Json} (parts : first.parts ⊆ second.parts) :
    first.texts ⊆ second.texts := by
  intro text member
  rcases mem_texts.mp member with inside | ⟨members, inside, key⟩
  · exact mem_texts.mpr (.inl (parts inside))
  · exact mem_texts.mpr (.inr ⟨members, parts inside, key⟩)

theorem key_mem_texts {member : String × Json} {members : List (String × Json)}
    (inside : member ∈ members) : member.1 ∈ (obj members).texts :=
  mem_texts.mpr (.inr ⟨members, mem_parts_self _, List.mem_map_of_mem inside⟩)

/-! Joining pairs into an object. -/

section Merge

variable {α : Type} {key : String} {value : α} {pairs : List (String × α)}

theorem keys_put : (put key value pairs).map Prod.fst =
    if key ∈ pairs.map Prod.fst then pairs.map Prod.fst else pairs.map Prod.fst ++ [key] := by
  induction pairs with
  | nil => rfl
  | cons pair rest ih =>
    obtain ⟨present, old⟩ := pair
    by_cases same : present = key
    · subst same
      simp [put]
    · have other : key ≠ present := fun equal => same equal.symm
      simp only [put, if_neg same, List.map_cons, ih, List.mem_cons, other, false_or]
      split <;> rfl

theorem mem_put {pair : String × α} (inside : pair ∈ put key value pairs) :
    pair = (key, value) ∨ pair ∈ pairs := by
  induction pairs with
  | nil => exact .inl (List.mem_singleton.mp inside)
  | cons first rest ih =>
    obtain ⟨present, old⟩ := first
    rw [put] at inside
    split at inside
    · rcases List.mem_cons.mp inside with new | later
      · exact .inl new
      · exact .inr (List.mem_cons_of_mem _ later)
    · rcases List.mem_cons.mp inside with kept | later
      · exact .inr (kept ▸ List.mem_cons_self)
      · exact (ih later).imp_right (List.mem_cons_of_mem _)

theorem lookup_put (key sought : String) (value : α) (pairs : List (String × α)) :
    (put key value pairs).lookup sought =
      if sought = key then some value else pairs.lookup sought := by
  induction pairs with
  | nil =>
    rw [put, List.lookup_cons]
    by_cases same : sought = key <;> simp [same, beq_false_of_ne]
  | cons first rest ih =>
    obtain ⟨present, old⟩ := first
    rw [put]
    split
    · rename_i replaced
      subst replaced
      rw [List.lookup_cons, List.lookup_cons]
      by_cases same : sought = present <;> simp [same, beq_false_of_ne]
    · rename_i kept
      rw [List.lookup_cons, List.lookup_cons, ih]
      by_cases here : sought = present
      · subst here
        simp [kept]
      · simp [beq_false_of_ne here]

theorem put_of_new (fresh : key ∉ pairs.map Prod.fst) :
    put key value pairs = pairs ++ [(key, value)] := by
  induction pairs with
  | nil => rfl
  | cons first rest ih =>
    obtain ⟨present, old⟩ := first
    simp only [List.map_cons, List.mem_cons, not_or] at fresh
    rw [put, if_neg (Ne.symm fresh.1), ih fresh.2, List.cons_append]

theorem nodup_put (distinct : (pairs.map Prod.fst).Nodup) :
    ((put key value pairs).map Prod.fst).Nodup := by
  rw [keys_put]
  split
  · exact distinct
  · rename_i fresh
    refine List.nodup_append.mpr ⟨distinct, by simp, ?_⟩
    intro present member other single same
    rw [List.mem_singleton.mp single] at same
    exact fresh (same ▸ member)

theorem foldl_put_invariant (pairs collected : List (String × α))
    (distinct : (collected.map Prod.fst).Nodup) :
    let members := pairs.foldl (fun members pair => put pair.1 pair.2 members) collected
    (members.map Prod.fst).Nodup ∧ ∀ member ∈ members, member ∈ collected ∨ member ∈ pairs := by
  induction pairs generalizing collected with
  | nil => exact ⟨distinct, fun _ member => .inl member⟩
  | cons pair rest ih =>
    obtain ⟨apart, origin⟩ := ih (put pair.1 pair.2 collected) (nodup_put distinct)
    refine ⟨apart, fun member inside => ?_⟩
    rcases origin member inside with early | late
    · rcases mem_put early with new | old
      · exact .inr (new ▸ List.mem_cons_self)
      · exact .inl old
    · exact .inr (List.mem_cons_of_mem _ late)

theorem nodup_merge (pairs : List (String × α)) : ((merge pairs).map Prod.fst).Nodup :=
  (foldl_put_invariant pairs [] List.nodup_nil).1

theorem mem_of_mem_merge {pair : String × α} (inside : pair ∈ merge pairs) : pair ∈ pairs :=
  ((foldl_put_invariant pairs [] List.nodup_nil).2 pair inside).resolve_left List.not_mem_nil

theorem foldl_put_of_nodup (pairs collected : List (String × α))
    (distinct : ((collected ++ pairs).map Prod.fst).Nodup) :
    pairs.foldl (fun members pair => put pair.1 pair.2 members) collected = collected ++ pairs := by
  induction pairs generalizing collected with
  | nil => rw [List.foldl_nil, List.append_nil]
  | cons pair rest ih =>
    have fresh : pair.1 ∉ collected.map Prod.fst := by
      rw [List.map_append, List.nodup_append] at distinct
      intro member
      exact distinct.2.2 pair.1 member pair.1 List.mem_cons_self rfl
    have grouped : collected ++ pair :: rest = (collected ++ [pair]) ++ rest := by simp
    rw [grouped] at distinct ⊢
    rw [List.foldl_cons, put_of_new fresh]
    exact ih (collected ++ [pair]) distinct

theorem merge_of_nodup (distinct : (pairs.map Prod.fst).Nodup) : merge pairs = pairs :=
  foldl_put_of_nodup pairs [] distinct

end Merge

end Descent.Json
