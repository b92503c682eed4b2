import Descent.Proofs.Json.Agreement
import Descent.Proofs.Json.Alternatives
import Descent.Proofs.Json.RoundTrip
import Mathlib

/-!
Pairs in which keys are repeated. Among the members that are made of them a key stands where it stood
first and has the value that it had last, whether the pairs are given or read from a text.
-/

namespace Descent

section LastWins

variable {α : Type} {key : String} {value : α} {pairs others members rest : List (String × α)}

def firstPlace (pairs : List (String × α)) (key : String) : Nat :=
  (pairs.map Prod.fst).idxOf key

/-- The members have every key of the pairs, once and in the order of their first places, with its last
value. -/
structure LastWins (pairs members : List (String × α)) : Prop where
  keys : ∀ key, key ∈ members.map Prod.fst ↔ key ∈ pairs.map Prod.fst
  once : (members.map Prod.fst).Nodup
  order : (members.map Prod.fst).Pairwise fun first second =>
    firstPlace pairs first < firstPlace pairs second
  values : ∀ key value, (key, value) ∈ members ↔
    ∃ before after, pairs = before ++ (key, value) :: after ∧ key ∉ after.map Prod.fst

theorem firstPlace_append (pairs others : List (String × α)) (key : String) :
    firstPlace (pairs ++ others) key =
      if key ∈ pairs.map Prod.fst then firstPlace pairs key
      else firstPlace others key + pairs.length := by
  rw [firstPlace, List.map_append, List.idxOf_append, List.length_map]
  rfl

theorem firstPlace_lt_length (inside : key ∈ pairs.map Prod.fst) :
    firstPlace pairs key < pairs.length := by
  have before := List.idxOf_lt_length_iff.mpr inside
  rwa [List.length_map] at before

/-- From the end, the first value that is found for a key is its last one. -/
theorem lookup_reverse_eq_some_iff : pairs.reverse.lookup key = some value ↔
    ∃ before after, pairs = before ++ (key, value) :: after ∧ key ∉ after.map Prod.fst := by
  rw [List.lookup_eq_some_iff]
  constructor
  · rintro ⟨after, before, whole, other⟩
    refine ⟨before.reverse, after.reverse, ?_, ?_⟩
    · rw [← List.reverse_reverse pairs, whole, List.reverse_append, List.reverse_cons,
        List.append_assoc, List.singleton_append]
    · rw [List.map_reverse, List.mem_reverse, List.mem_map]
      rintro ⟨pair, among, rfl⟩
      exact bne_iff_ne.mp (other pair among) rfl
  · rintro ⟨before, after, rfl, other⟩
    refine ⟨after.reverse, before.reverse, ?_, fun pair among => bne_iff_ne.mpr ?_⟩
    · rw [List.reverse_append, List.reverse_cons, List.append_assoc, List.singleton_append]
    · rintro rfl
      exact other (List.mem_map_of_mem (List.mem_reverse.mp among))

theorem mem_iff_lookup (once : (members.map Prod.fst).Nodup) :
    (key, value) ∈ members ↔ members.lookup key = some value :=
  ⟨Json.lookup_of_mem once, Json.mem_of_lookup⟩

/-- The keys and their number of times follow from their order and from the values. -/
theorem lastWins_of_lookup (order : (members.map Prod.fst).Pairwise fun first second =>
      firstPlace pairs first < firstPlace pairs second)
    (values : ∀ key, members.lookup key = pairs.reverse.lookup key) : LastWins pairs members := by
  have once : (members.map Prod.fst).Nodup := order.imp fun before same => by
    rw [same] at before
    exact Nat.lt_irrefl _ before
  refine ⟨fun key => ?_, once, order, fun key value => ?_⟩
  · rw [mem_keys_iff, values key, ← mem_keys_iff, List.map_reverse, List.mem_reverse]
  · rw [mem_iff_lookup once, values key, lookup_reverse_eq_some_iff]

namespace LastWins

theorem lookup_eq (wins : LastWins pairs members) (key : String) :
    members.lookup key = pairs.reverse.lookup key := by
  ext value
  rw [← mem_iff_lookup wins.once, wins.values, lookup_reverse_eq_some_iff]

/-- Order and values leave no choice. -/
theorem unique (wins : LastWins pairs members) (winsToo : LastWins pairs others) :
    members = others := by
  have sameMembers : members.Perm others := by
    rw [List.perm_ext_iff_of_nodup (.of_map _ wins.once) (.of_map _ winsToo.once)]
    rintro ⟨key, value⟩
    rw [wins.values, winsToo.values]
  have ordered := List.pairwise_map.mp wins.order
  have orderedToo := List.pairwise_map.mp winsToo.order
  refine sameMembers.eq_of_pairwise (fun first second _ _ before after => ?_) ordered orderedToo
  exact absurd before (Nat.lt_asymm after)

/-- Places among the members are ordered as the first places among the pairs. -/
theorem firstPlace_lt_iff (wins : LastWins pairs members) {first second : String}
    (inside : first ∈ pairs.map Prod.fst) (insideToo : second ∈ pairs.map Prod.fst) :
    firstPlace members first < firstPlace members second ↔
      firstPlace pairs first < firstPlace pairs second := by
  have here := List.idxOf_lt_length_iff.mpr ((wins.keys first).mpr inside)
  have there := List.idxOf_lt_length_iff.mpr ((wins.keys second).mpr insideToo)
  have ordered := List.pairwise_iff_getElem.mp wins.order
  constructor
  · intro before
    have apart := ordered _ _ here there before
    rwa [List.getElem_idxOf, List.getElem_idxOf] at apart
  · intro before
    rcases Nat.lt_trichotomy (firstPlace members first) (firstPlace members second) with
      earlier | same | later
    · exact earlier
    · rw [firstPlace, firstPlace, List.idxOf_inj ((wins.keys first).mpr inside)] at same
      rw [same] at before
      exact absurd before (Nat.lt_irrefl _)
    · have apart := ordered _ _ there here later
      rw [List.getElem_idxOf, List.getElem_idxOf] at apart
      exact absurd before (Nat.lt_asymm apart)

/-- One more pair is put in place of the one with its key, or behind all others. -/
theorem put (wins : LastWins pairs members) (key : String) (value : α) :
    LastWins (pairs ++ [(key, value)]) (Json.put key value members) := by
  apply lastWins_of_lookup
  · have kept : (members.map Prod.fst).Pairwise fun first second =>
        firstPlace (pairs ++ [(key, value)]) first < firstPlace (pairs ++ [(key, value)]) second := by
      refine wins.order.imp_of_mem fun {first second} here there before => ?_
      rwa [firstPlace_append, firstPlace_append, if_pos ((wins.keys first).mp here),
        if_pos ((wins.keys second).mp there)]
    rw [Json.keys_put]
    split
    · exact kept
    · rename_i fresh
      refine List.pairwise_append.mpr ⟨kept, List.pairwise_singleton _ _, ?_⟩
      intro first here second there
      obtain rfl := List.mem_singleton.mp there
      have inside := (wins.keys first).mp here
      have before := firstPlace_lt_length inside
      rw [wins.keys] at fresh
      rw [firstPlace_append, firstPlace_append, if_pos inside, if_neg fresh]
      omega
  · intro sought
    rw [Json.lookup_put, List.reverse_append, List.reverse_singleton, List.singleton_append,
      List.lookup_cons, wins.lookup_eq]
    split
    · rename_i same
      rw [same, beq_self_eq_true]
    · rename_i other
      rw [beq_false_of_ne other]

end LastWins

theorem lastWins_merge (pairs : List (String × α)) : LastWins pairs (Json.merge pairs) := by
  induction pairs using List.reverseRecOn with
  | nil => exact lastWins_of_lookup .nil fun _ => rfl
  | append_singleton pairs pair ih =>
    rw [Json.merge, List.foldl_append]
    exact ih.put pair.1 pair.2

theorem lastWins_self (once : (members.map Prod.fst).Nodup) : LastWins members members := by
  have wins := lastWins_merge members
  rwa [Json.merge_of_nodup once] at wins

namespace LastWins

/-- Pairs that are made into members in two parts first come to the same members in the end. -/
theorem append {whole : List (String × α)} (wins : LastWins pairs members)
    (winsToo : LastWins others rest) (joined : LastWins (members ++ rest) whole) :
    LastWins (pairs ++ others) whole := by
  apply lastWins_of_lookup
  · refine joined.order.imp_of_mem fun {first second} here there before => ?_
    have among := (joined.keys first).mp here
    have amongToo := (joined.keys second).mp there
    simp only [List.map_append, List.mem_append, wins.keys, winsToo.keys] at among amongToo
    simp only [firstPlace_append, wins.keys] at before ⊢
    by_cases early : first ∈ pairs.map Prod.fst
    · by_cases earlyToo : second ∈ pairs.map Prod.fst
      · simpa only [if_pos early, if_pos earlyToo, wins.firstPlace_lt_iff early earlyToo] using before
      · have inside := firstPlace_lt_length early
        rw [if_pos early, if_neg earlyToo]
        omega
    · by_cases earlyToo : second ∈ pairs.map Prod.fst
      · have inside := firstPlace_lt_length ((wins.keys second).mpr earlyToo)
        rw [if_neg early, if_pos earlyToo] at before
        omega
      · have later := among.resolve_left early
        have laterToo := amongToo.resolve_left earlyToo
        simp only [if_neg early, if_neg earlyToo, Nat.add_lt_add_iff_right] at before ⊢
        exact (winsToo.firstPlace_lt_iff later laterToo).mp before
  · intro key
    have front := (lastWins_self wins.once).lookup_eq key
    have back := (lastWins_self winsToo.once).lookup_eq key
    rw [joined.lookup_eq, List.reverse_append, List.reverse_append, List.lookup_append,
      List.lookup_append, ← front, ← back, wins.lookup_eq, winsToo.lookup_eq]

end LastWins

end LastWins

namespace Json

variable {value : Json} {pairs members : List (String × Json)} {view rest : View} {found : Json}
variable {word : List Char}

theorem ofPairs_append (pairs others : List (String × Json)) :
    ofPairs (pairs ++ others) = ofPairs (merge pairs ++ merge others) := by
  have whole := lastWins_merge (merge pairs ++ merge others)
  have inParts := (lastWins_merge pairs).append (lastWins_merge others) whole
  exact congrArg obj ((lastWins_merge (pairs ++ others)).unique inParts)

theorem Carried.enclosed_render (carried : (obj members).Carried) (indent : Option Int) :
    Enclosed '\x7b' '\x7d' (MemberWord Derives) (render indent (obj members)).toList members :=
  enclosed_renderMembers indent 0 (fun _ inside => carried.unquoted _ (key_mem_texts inside))
    fun _ inside => derives_renderAt indent 1 (carried.of_subset (parts_subset_obj inside))

namespace Grammar

def objectPairs : Parser (List (String × Json)) :=
  enclosed '\x7b' '\x7d' (pairOf Grammar.value)

theorem object_eq_matched_iff : object view = .matched found rest ↔
    ∃ pairs, objectPairs view = .matched pairs rest ∧ found = ofPairs pairs := by
  rw [object, objectOf, Parser.map_apply, Reply.bind_eq_matched]
  constructor
  · rintro ⟨pairs, middle, read, made⟩
    cases made
    exact ⟨pairs, read, rfl⟩
  · rintro ⟨pairs, read, rfl⟩
    exact ⟨pairs, rest, read, rfl⟩

theorem objectPairs_sound : Sound objectPairs (Enclosed '\x7b' '\x7d' (MemberWord Derives)) :=
  enclosed_sound (pairOf_sound value_sound)

theorem valueReader : EntryReader ']' Grammar.value Derives where
  opens := Derives.opens
  reads := fun derived split ends => value_of_splits derived split fun _ _ => ends
  refuses := fun head => by
    rw [value_eq_valueOf]
    exact valueOf_of_none_ahead (Production.ahead?_of_head head)

theorem objectPairs_of_splits (written : Enclosed '\x7b' '\x7d' (MemberWord Derives) word pairs)
    (split : view.Splits word rest) : objectPairs view = .matched pairs rest :=
  enclosed_of_splits ⟨by decide, rfl, by decide⟩ (pairReader valueReader) written split

/-- A value that is an object is read by the production for objects and no other. -/
theorem value_eq_matched_obj_iff : Grammar.value view = .matched (.obj members) rest ↔
    object view = .matched (.obj members) rest := by
  have shared (shown : Production.ahead? view = some .object) : Grammar.value view = object view :=
    Production.value_of_ahead shown
  constructor
  · intro parsed
    obtain ⟨word, split, derived⟩ := value_sound parsed
    have head : view.chars.head? = some '\x7b' := by
      generalize whole : obj members = found at derived
      cases derived with
      | object enclosed => cases enclosed <;> exact split.head?_chars
      | _ => cases whole
    rwa [← shared (Production.ahead?_of_head head)]
  · intro parsed
    have read : Production.object.parser view = .matched (.obj members) rest := parsed
    rwa [shared (Production.ahead?_of_matched read)]

structure Overwritten (view rest : View) (members : List (String × Json)) : Prop where
  read : ∃ pairs, objectPairs view = .matched pairs rest ∧
    Enclosed '\x7b' '\x7d' (MemberWord Derives) (view.upTo rest) pairs ∧ LastWins pairs members
  written : ∀ indent, Enclosed '\x7b' '\x7d' (MemberWord Derives)
      (render indent (.obj members)).toList members ∧
    ∃ ended, objectPairs (View.of (render indent (.obj members))) = .matched members ended ∧
      ended.isEmpty = true

theorem overwritten_of_object (parsed : object view = .matched found rest) :
    ∃ members, found = .obj members ∧ Overwritten view rest members := by
  obtain ⟨pairs, read, rfl⟩ := object_eq_matched_iff.mp parsed
  obtain ⟨word, split, enclosed⟩ := objectPairs_sound read
  have derived : Derives word (.obj (merge pairs)) := .object enclosed
  have carried : (obj (merge pairs)).Carried :=
    ⟨derived.inRange, fun text inside => (derived.foundIn text inside).1, derived.distinctKeys⟩
  refine ⟨merge pairs, rfl, ⟨pairs, read, ?_, lastWins_merge pairs⟩, fun indent => ?_⟩
  · rwa [split.upTo_eq]
  · have written := carried.enclosed_render indent
    obtain ⟨splitToo, left⟩ := View.splits_drop _
      ((View.chars_ofChars _).trans (List.append_nil _).symm)
    exact ⟨written, _, objectPairs_of_splits written splitToo, (View.isEmpty_iff _).mpr left⟩

end Grammar

open Grammar

/-- Of a repeated key the last value counts, at the first place. Members are not changed when they are
joined again, nor when they are joined with those of other pairs. -/
theorem repeated_keys_overwrite :
    (∀ pairs : List (String × Json), ofPairs pairs = .obj (merge pairs) ∧
      LastWins pairs (merge pairs) ∧ ofPairs (merge pairs) = ofPairs pairs) ∧
    (∀ pairs others : List (String × Json),
      ofPairs (pairs ++ others) = ofPairs (merge pairs ++ merge others)) ∧
    ∀ view rest : View,
      (∀ found, object view = .matched found rest →
        ∃ members, found = .obj members ∧ Overwritten view rest members) ∧
      ∀ members, Grammar.value view = .matched (.obj members) rest →
        Overwritten view rest members := by
  refine ⟨fun pairs => ⟨rfl, lastWins_merge pairs, ?_⟩, ofPairs_append, fun view rest => ⟨?_, ?_⟩⟩
  · exact congrArg obj (merge_of_nodup (nodup_merge pairs))
  · exact fun found parsed => overwritten_of_object parsed
  · intro members parsed
    obtain ⟨others, same, overwritten⟩ := overwritten_of_object (value_eq_matched_obj_iff.mp parsed)
    cases same
    exact overwritten

theorem repeated_key_overwritten :
    (∃ rest, object (View.of "\x7b\"b\":1, \"a\":2,\"b\" :[]\x7d,") =
        .matched (.obj [("b", .arr []), ("a", .num 2)]) rest ∧
      Overwritten (View.of "\x7b\"b\":1, \"a\":2,\"b\" :[]\x7d,") rest
        [("b", .arr []), ("a", .num 2)]) ∧
    ∃ rest, Grammar.value (View.of "\x7b\"\":null,\"\":true\x7d") =
        .matched (.obj [("", .bool true)]) rest ∧
      Overwritten (View.of "\x7b\"\":null,\"\":true\x7d") rest [("", .bool true)] := by
  constructor
  · obtain ⟨rest, parsed⟩ : ∃ rest, object (View.of "\x7b\"b\":1, \"a\":2,\"b\" :[]\x7d,") =
        .matched (.obj [("b", .arr []), ("a", .num 2)]) rest := ⟨_, by cbv⟩
    obtain ⟨members, same, overwritten⟩ := (repeated_keys_overwrite.2.2 _ rest).1 _ parsed
    cases same
    exact ⟨rest, parsed, overwritten⟩
  · obtain ⟨rest, parsed⟩ : ∃ rest, Grammar.value (View.of "\x7b\"\":null,\"\":true\x7d") =
        .matched (.obj [("", .bool true)]) rest := ⟨_, by cbv⟩
    exact ⟨rest, parsed, (repeated_keys_overwrite.2.2 _ rest).2 _ parsed⟩

end Json

end Descent
