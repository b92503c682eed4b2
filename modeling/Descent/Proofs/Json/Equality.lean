import Descent.Dispatch
import Descent.Json.Plain
import Descent.Proofs.Distinct
import Descent.Proofs.Json.Agreement
import Mathlib.Logic.Relation

/-!
Sameness of values is an equivalence. It sees through the order of the members of objects, at any
depth, and through nothing else, and it is what the plain data of the values decide.
-/

namespace Descent

/-- Equal as plain data, a boolean being no integer and a dictionary having no order. -/
inductive Plain.Same : Plain → Plain → Prop
  | nothing : Same nothing nothing
  | bool (value) : Same (bool value) (bool value)
  | int (value) : Same (int value) (int value)
  | text (value) : Same (text value) (text value)
  | list {values others} (length : values.length = others.length)
      (each : ∀ index inside present,
        Same (values.get ⟨index, inside⟩) (others.get ⟨index, present⟩)) :
      Same (list values) (list others)
  | dict {entries others}
      (keys : ∀ key, key ∈ entries.map Prod.fst ↔ key ∈ others.map Prod.fst)
      (each : ∀ key value other, entries.lookup key = some value →
        others.lookup key = some other → Same value other) :
      Same (dict entries) (dict others)

namespace Json

inductive Reordered : Json → Json → Prop
  | here {members others} (perm : List.Perm members others) : Reordered (obj members) (obj others)
  | value {first second} (before after : List Json) (deeper : Reordered first second) :
      Reordered (arr (before ++ first :: after)) (arr (before ++ second :: after))
  | member {first second} (key : String) (before after : List (String × Json))
      (deeper : Reordered first second) :
      Reordered (obj (before ++ (key, first) :: after)) (obj (before ++ (key, second) :: after))

variable {first second third : Json}

/-! The laws of an equivalence. -/

theorem same_refl (distinct : first.DistinctKeys) : first.same first = true := by
  induction first using induct_children with
  | step value ih =>
    rw [same_iff distinct distinct]
    exact .refl fun child inside => ih child inside (distinct.child inside)

theorem same_symm (distinct : first.DistinctKeys) (otherDistinct : second.DistinctKeys)
    (equal : first.same second = true) : second.same first = true := by
  induction first using induct_children generalizing second with
  | step value ih =>
    rw [same_iff distinct otherDistinct] at equal
    rw [same_iff otherDistinct distinct]
    refine (equal.imp fun child inside counterpart present alike => ?_).swap
    exact ih child inside (distinct.child inside) (otherDistinct.child present) alike

theorem same_trans (distinct : first.DistinctKeys) (middleDistinct : second.DistinctKeys)
    (lastDistinct : third.DistinctKeys) (equal : first.same second = true)
    (further : second.same third = true) : first.same third = true := by
  induction first using induct_children generalizing second third with
  | step value ih =>
    rw [same_iff distinct middleDistinct] at equal
    rw [same_iff middleDistinct lastDistinct] at further
    rw [same_iff distinct lastDistinct]
    refine (equal.comp further).imp ?_
    rintro child inside last present ⟨other, between, alike, joined⟩
    exact ih child inside (distinct.child inside) (middleDistinct.child between)
      (lastDistinct.child present) alike joined

theorem same_equivalence : EquivalenceOn DistinctKeys same :=
  ⟨same_refl, same_symm, same_trans⟩

theorem Corresponds.className_eq {related : Json → Json → Prop}
    (corresponds : Corresponds related first second) : first.className = second.className := by
  cases corresponds <;> rfl

/-! Putting members in another order. -/

theorem Reordered.same (step : Reordered first second) (distinct : first.DistinctKeys) :
    second.DistinctKeys ∧ first.same second = true := by
  induction step with
  | here perm =>
    obtain ⟨own, each⟩ := distinctKeys_obj_iff.mp distinct
    have otherDistinct := distinctKeys_obj_iff.mpr ⟨(perm.map Prod.fst).nodup_iff.mp own,
      fun other present => each other (perm.mem_iff.mpr present)⟩
    refine ⟨otherDistinct, ?_⟩
    rw [same_iff distinct otherDistinct]
    exact .obj (.of_perm (fun member inside => same_refl (each member inside)) own perm)
  | @value first second before after _ ih =>
    have each := distinctKeys_arr_iff.mp distinct
    rw [List.forall_mem_append, List.forall_mem_cons] at each
    obtain ⟨earlier, here, later⟩ := each
    obtain ⟨moved, equal⟩ := ih here
    have otherDistinct : (arr (before ++ second :: after)).DistinctKeys := by
      rw [distinctKeys_arr_iff, List.forall_mem_append, List.forall_mem_cons]
      exact ⟨earlier, moved, later⟩
    refine ⟨otherDistinct, ?_⟩
    rw [same_iff distinct otherDistinct]
    refine .arr (List.rel_append ?_ (.cons equal ?_))
    · exact List.forall₂_same.mpr fun value inside => same_refl (earlier value inside)
    · exact List.forall₂_same.mpr fun value inside => same_refl (later value inside)
  | @member first second key before after _ ih =>
    obtain ⟨own, each⟩ := distinctKeys_obj_iff.mp distinct
    rw [List.forall_mem_append, List.forall_mem_cons] at each
    obtain ⟨earlier, here, later⟩ := each
    obtain ⟨moved, equal⟩ := ih here
    have otherDistinct : (obj (before ++ (key, second) :: after)).DistinctKeys := by
      rw [distinctKeys_obj_iff, List.forall_mem_append, List.forall_mem_cons]
      rw [List.map_append, List.map_cons] at own ⊢
      exact ⟨own, earlier, moved, later⟩
    refine ⟨otherDistinct, ?_⟩
    rw [same_iff distinct otherDistinct]
    refine .obj (.of_forall₂ (List.rel_append ?_ (.cons ⟨rfl, equal⟩ ?_)))
    · exact List.forall₂_same.mpr fun member inside => ⟨rfl, same_refl (earlier member inside)⟩
    · exact List.forall₂_same.mpr fun member inside => ⟨rfl, same_refl (later member inside)⟩

theorem same_of_reordered (distinct : first.DistinctKeys)
    (steps : Relation.ReflTransGen Reordered first second) :
    second.DistinctKeys ∧ first.same second = true := by
  induction steps with
  | refl => exact ⟨distinct, same_refl distinct⟩
  | tail _ step ih =>
    obtain ⟨between, equal⟩ := ih
    obtain ⟨last, next⟩ := step.same between
    exact ⟨last, same_trans distinct between last equal next⟩

/-- Items that are changed in steps, one item after the other. -/
theorem reordered_each {α : Type} {step : α → α → Prop} {wrap : List α → Json}
    (place : ∀ before after {item other}, step item other →
      Reordered (wrap (before ++ item :: after)) (wrap (before ++ other :: after)))
    {items others : List α} (each : List.Forall₂ (Relation.ReflTransGen step) items others)
    (before : List α) :
    Relation.ReflTransGen Reordered (wrap (before ++ items)) (wrap (before ++ others)) := by
  induction each generalizing before with
  | nil => exact .refl
  | @cons _ other rest _ head _ ih =>
    have moved := head.lift (fun item => wrap (before ++ item :: rest)) fun _ _ => place before rest
    have further := ih (before ++ [other])
    simp only [List.append_assoc, List.singleton_append] at further
    exact moved.trans further

theorem reordered_of_same (distinct : first.DistinctKeys) (otherDistinct : second.DistinctKeys)
    (equal : first.same second = true) : Relation.ReflTransGen Reordered first second := by
  induction first generalizing second with
  | arr values ih =>
    rw [same_iff distinct otherDistinct] at equal
    cases equal with
    | arr each =>
      rw [distinctKeys_arr_iff] at distinct otherDistinct
      refine reordered_each (fun before after => .value before after)
        (forall₂_imp_of_mem each ?_) []
      intro value inside other present alike
      exact ih value inside (distinct value inside) (otherDistinct other present) alike
  | obj members ih =>
    rw [same_iff distinct otherDistinct] at equal
    cases equal with
    | obj agree =>
      rw [distinctKeys_obj_iff] at distinct otherDistinct
      obtain ⟨aligned, perm, each⟩ := agree.exists_aligned distinct.1 otherDistinct.1
      have place : ∀ before after {item other : String × Json},
          item.1 = other.1 ∧ Reordered item.2 other.2 →
          Reordered (obj (before ++ item :: after)) (obj (before ++ other :: after)) := by
        rintro before after ⟨key, value⟩ ⟨_, other⟩ ⟨rfl, deeper⟩
        exact .member key before after deeper
      refine (reordered_each place (forall₂_imp_of_mem each ?_) []).tail (.here perm)
      rintro ⟨key, value⟩ inside ⟨_, other⟩ present ⟨rfl, alike⟩
      have steps := ih _ inside (distinct.2 _ inside)
        (otherDistinct.2 _ (perm.mem_iff.mp present)) alike
      exact steps.lift (fun value => (key, value)) fun _ _ deeper => ⟨rfl, deeper⟩
  | _ =>
    rw [same_iff distinct otherDistinct] at equal
    cases equal
    exact .refl

/-! Plain data. -/

theorem toPlainAll_eq (values : List Json) : toPlainAll values = values.map toPlain := by
  induction values with
  | nil => rfl
  | cons value rest ih => rw [toPlainAll, ih, List.map_cons]

theorem toPlainMembers_eq (members : List (String × Json)) :
    toPlainMembers members = members.map fun member => (member.1, member.2.toPlain) := by
  induction members with
  | nil => rfl
  | cons member rest ih => rw [toPlainMembers, ih, List.map_cons]

theorem toPlain_same_iff_corresponds : first.toPlain.Same second.toPlain ↔
    Corresponds (fun value other => value.toPlain.Same other.toPlain) first second := by
  constructor
  · intro equal
    cases first <;> cases second <;> simp only [toPlain] at equal <;> cases equal
    case nothing => exact .null
    case bool => exact .bool _
    case int => exact .num _
    case text => exact .str _
    case list length each =>
      rw [toPlainAll_eq, toPlainAll_eq] at length each
      have aligned := List.forall₂_iff_get.mpr ⟨length, each⟩
      rw [List.forall₂_map_left_iff, List.forall₂_map_right_iff] at aligned
      exact .arr aligned
    case dict keys each =>
      rw [toPlainMembers_eq, toPlainMembers_eq] at keys each
      exact .obj ((Agree.map_iff toPlain).mp ⟨keys, each⟩)
  · intro corresponds
    cases corresponds with
    | null => exact .nothing
    | bool => exact .bool _
    | num => exact .int _
    | str => exact .text _
    | arr aligned =>
      rw [← List.forall₂_map_right_iff, ← List.forall₂_map_left_iff, ← toPlainAll_eq,
        ← toPlainAll_eq, List.forall₂_iff_get] at aligned
      rw [toPlain, toPlain]
      exact .list aligned.1 aligned.2
    | obj agree =>
      rw [← Agree.map_iff, ← toPlainMembers_eq, ← toPlainMembers_eq] at agree
      rw [toPlain, toPlain]
      exact .dict agree.keys agree.values

theorem toPlain_same_iff (distinct : first.DistinctKeys) (otherDistinct : second.DistinctKeys) :
    first.toPlain.Same second.toPlain ↔ first.same second = true := by
  induction first using induct_children generalizing second with
  | step value ih =>
    rw [toPlain_same_iff_corresponds, same_iff distinct otherDistinct]
    have childwise : ∀ child ∈ value.children, ∀ counterpart ∈ second.children,
        (child.toPlain.Same counterpart.toPlain ↔ child.same counterpart = true) :=
      fun child inside counterpart present =>
        ih child inside (distinct.child inside) (otherDistinct.child present)
    constructor
    · exact fun equal => equal.imp fun child inside counterpart present =>
        (childwise child inside counterpart present).mp
    · exact fun equal => equal.imp fun child inside counterpart present =>
        (childwise child inside counterpart present).mpr

theorem same_up_to_member_order (first second third : Json) (distinct : first.DistinctKeys)
    (otherDistinct : second.DistinctKeys) (lastDistinct : third.DistinctKeys) :
    first.same first = true ∧
    (first.same second = true → second.same first = true) ∧
    (first.same second = true → second.same third = true → first.same third = true) ∧
    (first.className ≠ second.className → first.same second = false) ∧
    (∀ values others, first = arr values → second = arr others →
      (first.same second = true ↔
        List.Forall₂ (fun value other => value.same other = true) values others)) ∧
    (∀ members others, first = obj members → second = obj others →
      (first.same second = true ↔
        Agree (fun value other => value.same other = true) members others)) ∧
    (first.same second = true ↔ Relation.ReflTransGen Reordered first second) ∧
    (first.same second = true ↔ first.toPlain.Same second.toPlain) ∧
    ∀ values : List Json, (∀ value ∈ values, value.DistinctKeys) →
      (∀ picked, Selection same picked values → picked.length = distinctCount same values) ∧
      ∀ others, values.Perm others → distinctCount same values = distinctCount same others := by
  refine ⟨same_refl distinct, same_symm distinct otherDistinct,
    same_trans distinct otherDistinct lastDistinct, fun variants => ?_, ?_, ?_, ⟨?_, ?_⟩, ?_, ?_⟩
  · rw [Bool.eq_false_iff]
    exact fun equal => variants ((same_iff distinct otherDistinct).mp equal).className_eq
  · rintro values others rfl rfl
    rw [same, sameAll_iff]
  · rintro members others rfl rfl
    exact same_obj_iff (distinctKeys_obj_iff.mp distinct).1
      (distinctKeys_obj_iff.mp otherDistinct).1
  · exact reordered_of_same distinct otherDistinct
  · exact fun steps => (same_of_reordered distinct steps).2
  · exact (toPlain_same_iff distinct otherDistinct).symm
  · exact fun values inside => ⟨fun picked selection =>
      same_equivalence.length_eq_distinctCount inside selection,
      fun others perm => same_equivalence.distinctCount_perm inside perm⟩

def ordered : Json :=
  obj [("a", arr [obj [("x", null), ("y", num 1)]]), ("b", bool true)]

def shuffled : Json :=
  obj [("b", bool true), ("a", arr [obj [("y", num 1), ("x", null)]])]

theorem shuffled_same_as_ordered :
    (ordered.DistinctKeys ∧ shuffled.DistinctKeys) ∧
      Relation.ReflTransGen Reordered ordered shuffled ∧ shuffled.same ordered = true ∧
      ordered.toPlain.Same shuffled.toPlain ∧
      distinctCount same [ordered, num 1, shuffled] =
        distinctCount same [num 1, ordered, shuffled] := by
  have distinct : ordered.DistinctKeys := by
    simp [ordered, DistinctKeys, parts, partsAll, partsMembers]
  have otherDistinct : shuffled.DistinctKeys := by
    simp [shuffled, DistinctKeys, parts, partsAll, partsMembers]
  have lastDistinct : (num 1).DistinctKeys := by simp [DistinctKeys, parts]
  obtain ⟨_, symm, _, _, _, _, reordered, plain, counted⟩ :=
    same_up_to_member_order ordered shuffled (num 1) distinct otherDistinct lastDistinct
  have equal : ordered.same shuffled = true := by decide
  refine ⟨⟨distinct, otherDistinct⟩, reordered.mp equal, symm equal, plain.mp equal, ?_⟩
  refine (counted [ordered, num 1, shuffled] ?_).2 _ (.swap _ _ _)
  simp only [List.forall_mem_cons]
  exact ⟨distinct, lastDistinct, otherDistinct, by simp⟩

end Json

end Descent
