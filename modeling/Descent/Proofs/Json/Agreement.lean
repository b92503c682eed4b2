import Descent.Proofs.Json.Sameness
import Mathlib.Data.List.Forall2
import Mathlib.Data.List.Nodup

/-!
When two values are the same, read one level down: arrays element by element, objects key by key.
-/

namespace Descent

structure Agree {α : Type} (related : α → α → Prop) (members others : List (String × α)) :
    Prop where
  keys : ∀ key, key ∈ members.map Prod.fst ↔ key ∈ others.map Prod.fst
  values : ∀ key value other, members.lookup key = some value → others.lookup key = some other →
    related value other

section Agree

variable {α : Type} {related : α → α → Prop} {key : String} {members others : List (String × α)}

theorem mem_keys_iff : key ∈ members.map Prod.fst ↔ ∃ value, members.lookup key = some value := by
  induction members with
  | nil => simp
  | cons member rest ih =>
    obtain ⟨present, value⟩ := member
    rw [List.map_cons, List.mem_cons, ih, List.lookup_cons]
    by_cases equal : key = present
    · simp [equal]
    · simp [equal, beq_false_of_ne equal]

theorem lookup_map {β : Type} (convert : α → β) :
    (members.map fun member => (member.1, convert member.2)).lookup key =
      (members.lookup key).map convert := by
  induction members with
  | nil => rfl
  | cons member rest ih =>
    obtain ⟨present, value⟩ := member
    rw [List.map_cons, List.lookup_cons, List.lookup_cons, ih]
    cases key == present <;> rfl

theorem forall₂_imp_of_mem {β : Type} {first second : α → β → Prop} {values : List α}
    {others : List β} (each : List.Forall₂ first values others)
    (imp : ∀ value ∈ values, ∀ other ∈ others, first value other → second value other) :
    List.Forall₂ second values others := by
  induction each with
  | nil => exact .nil
  | cons head _ ih =>
    refine .cons (imp _ List.mem_cons_self _ List.mem_cons_self head) (ih ?_)
    intro value inside other present
    exact imp value (List.mem_cons_of_mem _ inside) other (List.mem_cons_of_mem _ present)

theorem forall₂_comp {first second : α → α → Prop} {values others rest : List α}
    (each : List.Forall₂ first values others) (further : List.Forall₂ second others rest) :
    List.Forall₂ (fun value last => ∃ other ∈ others, first value other ∧ second other last)
      values rest := by
  induction each generalizing rest with
  | nil =>
    cases further
    exact .nil
  | cons head _ ih =>
    cases further with
    | cons next later =>
      refine .cons ⟨_, List.mem_cons_self, head, next⟩ ((ih later).imp ?_)
      rintro value last ⟨other, between, joined⟩
      exact ⟨other, List.mem_cons_of_mem _ between, joined⟩

namespace Agree

theorem refl (same : ∀ member ∈ members, related member.2 member.2) :
    Agree related members members := by
  refine ⟨fun _ => Iff.rfl, fun key value other found again => ?_⟩
  rw [found] at again
  cases again
  exact same _ (Json.mem_of_lookup found)

theorem imp {other : α → α → Prop} (agree : Agree related members others)
    (imp : ∀ member ∈ members, ∀ entry ∈ others, related member.2 entry.2 →
      other member.2 entry.2) : Agree other members others := by
  refine ⟨agree.keys, fun key value entry found present => ?_⟩
  exact imp _ (Json.mem_of_lookup found) _ (Json.mem_of_lookup present)
    (agree.values key value entry found present)

theorem swap (agree : Agree related members others) :
    Agree (fun value other => related other value) others members :=
  ⟨fun key => (agree.keys key).symm,
    fun key value other found present => agree.values key other value present found⟩

theorem comp {next : α → α → Prop} {rest : List (String × α)}
    (agree : Agree related members others) (further : Agree next others rest) :
    Agree (fun value last => ∃ other ∈ others, related value other.2 ∧ next other.2 last)
      members rest := by
  refine ⟨fun key => (agree.keys key).trans (further.keys key), ?_⟩
  intro key value last found present
  obtain ⟨other, between⟩ := mem_keys_iff.mp ((agree.keys key).mp (mem_keys_iff.mpr ⟨_, found⟩))
  exact ⟨_, Json.mem_of_lookup between, agree.values key value other found between,
    further.values key other last between present⟩

theorem of_perm (same : ∀ member ∈ members, related member.2 member.2)
    (distinct : (members.map Prod.fst).Nodup) (perm : members.Perm others) :
    Agree related members others := by
  refine ⟨fun key => (perm.map Prod.fst).mem_iff, fun key value other found present => ?_⟩
  have kept := Json.lookup_of_mem distinct (perm.mem_iff.mpr (Json.mem_of_lookup present))
  rw [found] at kept
  cases kept
  exact same _ (Json.mem_of_lookup found)

/-- Members of the same keys in the same order. -/
theorem of_forall₂ (each : List.Forall₂ (fun member other =>
    member.1 = other.1 ∧ related member.2 other.2) members others) :
    Agree related members others := by
  induction each with
  | nil => exact ⟨fun _ => Iff.rfl, fun _ _ _ found => by cases found⟩
  | @cons member other _ _ head _ ih =>
    refine ⟨fun sought => ?_, fun sought value entry found present => ?_⟩
    · simp only [List.map_cons, List.mem_cons, head.1, ih.keys sought]
    · rw [List.lookup_cons, head.1] at found
      rw [List.lookup_cons] at present
      cases here : sought == other.1 with
      | true =>
        simp only [here, Option.some.injEq] at found present
        exact found ▸ present ▸ head.2
      | false =>
        simp only [here] at found present
        exact ih.values sought value entry found present

theorem map_iff {β : Type} {next : β → β → Prop} (convert : α → β) :
    Agree next (members.map fun member => (member.1, convert member.2))
        (others.map fun other => (other.1, convert other.2)) ↔
      Agree (fun value other => next (convert value) (convert other)) members others := by
  have keys : ∀ entries : List (String × α),
      (entries.map fun entry => (entry.1, convert entry.2)).map Prod.fst = entries.map Prod.fst :=
    fun entries => by rw [List.map_map]; rfl
  constructor
  · intro agree
    refine ⟨fun key => by simpa only [keys] using agree.keys key, ?_⟩
    intro key value other found present
    apply agree.values key
    · rw [lookup_map, found, Option.map_some]
    · rw [lookup_map, present, Option.map_some]
  · intro agree
    refine ⟨fun key => by simpa only [keys] using agree.keys key, ?_⟩
    intro key value other found present
    rw [lookup_map, Option.map_eq_some_iff] at found present
    obtain ⟨source, sourceFound, rfl⟩ := found
    obtain ⟨target, targetFound, rfl⟩ := present
    exact agree.values key source target sourceFound targetFound

/-- The other members can be put in the order of the first ones. -/
theorem exists_aligned (distinct : (members.map Prod.fst).Nodup)
    (otherDistinct : (others.map Prod.fst).Nodup) (agree : Agree related members others) :
    ∃ aligned, List.Perm aligned others ∧ List.Forall₂ (fun member other =>
      member.1 = other.1 ∧ related member.2 other.2) members aligned := by
  have counterpart : ∀ member ∈ members, ∃ value, others.lookup member.1 = some value :=
    fun member inside => mem_keys_iff.mp ((agree.keys _).mp (List.mem_map_of_mem inside))
  refine ⟨members.map fun member => (member.1, (others.lookup member.1).getD member.2), ?_, ?_⟩
  · have alignedDistinct : ((members.map fun member =>
        (member.1, (others.lookup member.1).getD member.2)).map Prod.fst).Nodup := by
      rw [List.map_map]
      exact distinct
    apply (List.perm_ext_iff_of_nodup (List.Nodup.of_map _ alignedDistinct)
      (List.Nodup.of_map _ otherDistinct)).mpr
    intro entry
    rw [List.mem_map]
    constructor
    · rintro ⟨member, inside, rfl⟩
      obtain ⟨value, found⟩ := counterpart member inside
      rw [found]
      exact Json.mem_of_lookup found
    · intro among
      have key := (agree.keys entry.1).mpr (List.mem_map_of_mem among)
      obtain ⟨member, inside, same⟩ := List.mem_map.mp key
      refine ⟨member, inside, ?_⟩
      rw [same, Json.lookup_of_mem otherDistinct among]
      rfl
  · rw [List.forall₂_map_right_iff, List.forall₂_same]
    intro member inside
    obtain ⟨value, found⟩ := counterpart member inside
    rw [found]
    exact ⟨rfl, agree.values _ _ _ (Json.lookup_of_mem distinct inside) found⟩

end Agree

end Agree

namespace Json

inductive Corresponds (related : Json → Json → Prop) : Json → Json → Prop
  | null : Corresponds related null null
  | bool (value) : Corresponds related (bool value) (bool value)
  | num (value) : Corresponds related (num value) (num value)
  | str (value) : Corresponds related (str value) (str value)
  | arr {values others} (each : List.Forall₂ related values others) :
      Corresponds related (arr values) (arr others)
  | obj {members others} (agree : Agree related members others) :
      Corresponds related (obj members) (obj others)

def children : Json → List Json
  | arr values => values
  | obj members => members.map Prod.snd
  | _ => []

variable {first second third : Json} {values others : List Json}
  {members entries : List (String × Json)}

theorem induct_children {motive : Json → Prop}
    (step : ∀ value, (∀ child ∈ value.children, motive child) → motive value) (value : Json) :
    motive value := by
  induction value with
  | arr values ih => exact step _ ih
  | obj members ih => exact step _ (List.forall_mem_map.mpr ih)
  | _ => exact step _ fun child inside => absurd inside List.not_mem_nil

namespace Corresponds

variable {related : Json → Json → Prop}

theorem refl (same : ∀ child ∈ first.children, related child child) :
    Corresponds related first first := by
  cases first with
  | arr values => exact .arr (List.forall₂_same.mpr same)
  | obj members => exact .obj (.refl (List.forall_mem_map.mp same))
  | _ => constructor

theorem imp {other : Json → Json → Prop} (corresponds : Corresponds related first second)
    (imp : ∀ child ∈ first.children, ∀ counterpart ∈ second.children,
      related child counterpart → other child counterpart) : Corresponds other first second := by
  cases corresponds with
  | arr each => exact .arr (forall₂_imp_of_mem each imp)
  | obj agree =>
    refine .obj (agree.imp fun member inside entry present => ?_)
    exact imp _ (List.mem_map_of_mem inside) _ (List.mem_map_of_mem present)
  | _ => constructor

theorem swap (corresponds : Corresponds related first second) :
    Corresponds (fun value other => related other value) second first := by
  cases corresponds with
  | arr each => exact .arr (.flip each)
  | obj agree => exact .obj agree.swap
  | _ => constructor

theorem comp {next : Json → Json → Prop} (corresponds : Corresponds related first second)
    (further : Corresponds next second third) :
    Corresponds (fun value last => ∃ child ∈ second.children, related value child ∧
      next child last) first third := by
  cases corresponds with
  | arr each =>
    cases further with
    | arr later => exact .arr (forall₂_comp each later)
  | obj agree =>
    cases further with
    | obj later =>
      refine .obj ((agree.comp later).imp ?_)
      rintro _ _ _ _ ⟨other, between, joined⟩
      exact ⟨other.2, List.mem_map_of_mem between, joined⟩
  | _ =>
    cases further
    constructor

end Corresponds

theorem distinctKeys_arr_iff :
    (arr values).DistinctKeys ↔ ∀ value ∈ values, value.DistinctKeys := by
  constructor
  · exact fun distinct value inside => distinct.of_subset (parts_subset_arr inside)
  · intro each members inside
    rcases mem_parts_arr.mp inside with whole | ⟨value, among, deep⟩
    · cases whole
    · exact each value among members deep

theorem distinctKeys_obj_iff : (obj members).DistinctKeys ↔
    (members.map Prod.fst).Nodup ∧ ∀ member ∈ members, member.2.DistinctKeys := by
  constructor
  · intro distinct
    exact ⟨distinct members (mem_parts_self _),
      fun member inside => distinct.of_subset (parts_subset_obj inside)⟩
  · rintro ⟨own, each⟩ others inside
    rcases mem_parts_obj.mp inside with whole | ⟨member, among, deep⟩
    · cases whole
      exact own
    · exact each member among others deep

theorem DistinctKeys.child (distinct : first.DistinctKeys) (inside : second ∈ first.children) :
    second.DistinctKeys := by
  cases first with
  | arr values => exact distinctKeys_arr_iff.mp distinct second inside
  | obj members => exact List.forall_mem_map.mpr (distinctKeys_obj_iff.mp distinct).2 second inside
  | _ => exact absurd inside List.not_mem_nil

theorem sameAll_iff : sameAll values others = true ↔
    List.Forall₂ (fun value other => value.same other = true) values others := by
  induction values generalizing others with
  | nil => cases others <;> simp [sameAll]
  | cons value rest ih => cases others <;> simp [sameAll, ih]

theorem same_obj_iff (distinct : (members.map Prod.fst).Nodup)
    (otherDistinct : (entries.map Prod.fst).Nodup) :
    (obj members).same (obj entries) = true ↔
      Agree (fun value other => value.same other = true) members entries := by
  rw [same, Bool.and_eq_true, beq_iff_eq]
  constructor
  · rintro ⟨length, equal⟩
    have counterpart := sameMembers_iff.mp equal
    refine ⟨fun key => ⟨fun inside => ?_, fun inside => ?_⟩, ?_⟩
    · obtain ⟨member, among, rfl⟩ := List.mem_map.mp inside
      obtain ⟨other, found, _⟩ := counterpart member among
      exact mem_keys_iff.mpr ⟨other, found⟩
    · obtain ⟨entry, among, rfl⟩ := List.mem_map.mp inside
      obtain ⟨member, present, key, _⟩ :=
        exists_of_sameMembers distinct otherDistinct length equal among
      exact key ▸ List.mem_map_of_mem present
    · intro key value other found present
      obtain ⟨partner, partnered, alike⟩ := counterpart _ (mem_of_lookup found)
      rw [present] at partnered
      cases partnered
      exact alike
  · intro agree
    have keys := (List.perm_ext_iff_of_nodup distinct otherDistinct).mpr agree.keys
    refine ⟨by simpa only [List.length_map] using keys.length_eq, sameMembers_iff.mpr ?_⟩
    intro member inside
    obtain ⟨other, found⟩ := mem_keys_iff.mp (keys.mem_iff.mp (List.mem_map_of_mem inside))
    exact ⟨other, found, agree.values _ _ _ (lookup_of_mem distinct inside) found⟩

theorem same_iff (distinct : first.DistinctKeys) (otherDistinct : second.DistinctKeys) :
    first.same second = true ↔
      Corresponds (fun value other => value.same other = true) first second := by
  constructor
  · intro equal
    cases first <;> cases second <;> simp only [same, beq_iff_eq, Bool.false_eq_true] at equal
    case null => exact .null
    case bool => exact equal ▸ .bool _
    case num => exact equal ▸ .num _
    case str => exact equal ▸ .str _
    case arr => exact .arr (sameAll_iff.mp equal)
    case obj =>
      refine .obj ((same_obj_iff (distinctKeys_obj_iff.mp distinct).1
        (distinctKeys_obj_iff.mp otherDistinct).1).mp ?_)
      rw [same]
      exact equal
  · intro corresponds
    cases corresponds with
    | null => rfl
    | bool | num | str => simp only [same, beq_self_eq_true]
    | arr each => rw [same]; exact sameAll_iff.mpr each
    | obj agree =>
      exact (same_obj_iff (distinctKeys_obj_iff.mp distinct).1
        (distinctKeys_obj_iff.mp otherDistinct).1).mpr agree

end Json

end Descent
