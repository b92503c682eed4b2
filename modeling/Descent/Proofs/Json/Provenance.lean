import Descent.Proofs.Json.Contents
import Descent.Proofs.Json.Derivation

/-!
What a derived value can hold: numbers of 32 bits, texts that stand in the word without a quote,
and objects whose keys are distinct.
-/

namespace Descent.Json

variable {α : Type}

def FoundIn (word : List Char) (text : String) : Prop :=
  '"' ∉ text.toList ∧ text.toList <:+: word

def Sourced (word : List Char) : Json → Prop
  | num number => Grammar.least ≤ number ∧ number ≤ Grammar.greatest
  | str text => FoundIn word text
  | obj members => (members.map Prod.fst).Nodup ∧ ∀ member ∈ members, FoundIn word member.1
  | _ => True

theorem EntryList.exists_word {entry : List Char → α → Prop} {body : List Char} {values : List α}
    {value : α} (list : EntryList entry body values) (inside : value ∈ values) :
    ∃ word, word <:+: body ∧ entry word value := by
  induction list with
  | one written =>
    rw [List.mem_singleton] at inside
    subst inside
    exact ⟨_, List.infix_refl _, written⟩
  | more written _ _ _ ih =>
    rcases List.mem_cons.mp inside with rfl | later
    · refine ⟨_, ?_, written⟩
      rw [List.append_assoc, List.append_assoc]
      exact (List.prefix_append _ _).isInfix
    · obtain ⟨word, part, written⟩ := ih later
      exact ⟨word, part.trans (List.suffix_append _ _).isInfix, written⟩

theorem Enclosed.exists_word {left right : Char} {entry : List Char → α → Prop}
    {word : List Char} {values : List α} {value : α} (enclosed : Enclosed left right entry word values)
    (inside : value ∈ values) : ∃ part, part <:+: word ∧ entry part value := by
  cases enclosed with
  | empty => exact absurd inside List.not_mem_nil
  | entries _ list _ =>
    obtain ⟨part, within, written⟩ := list.exists_word inside
    refine ⟨part, within.trans ?_, written⟩
    rw [List.append_assoc (_ ++ _)]
    exact List.infix_append _ _ _

theorem StringWord.foundIn {name word : List Char} {content : String}
    (quoted : StringWord name content) (inside : name <:+: word) : FoundIn word content := by
  cases quoted with
  | quoted plain =>
    refine ⟨by simpa using plain, List.IsInfix.trans ?_ inside⟩
    rw [String.toList_ofList]
    exact List.infix_append ['"'] _ ['"']

theorem Derives.sourced {word text : List Char} {value : Json} (derived : Derives word value)
    (inside : word <:+: text) : ∀ part ∈ value.parts, Sourced text part := by
  refine derived.induct (P := fun word value => word <:+: text → ∀ part ∈ value.parts,
    Sourced text part) ?_ ?_ ?_ ?_ ?_ ?_ ?_ inside
  · intro _ part member
    rw [List.mem_singleton.mp member]
    trivial
  · intro _ part member
    rw [List.mem_singleton.mp member]
    trivial
  · intro _ part member
    rw [List.mem_singleton.mp member]
    trivial
  · intro _ number _ lower upper _ part member
    rw [List.mem_singleton.mp member]
    exact ⟨lower, upper⟩
  · intro _ content quoted inside part member
    rw [List.mem_singleton.mp member]
    exact quoted.foundIn inside
  · intro word values enclosed inside part member
    rcases mem_parts_arr.mp member with rfl | ⟨value, among, member⟩
    · trivial
    · obtain ⟨_, within, _, ih⟩ := enclosed.exists_word among
      exact ih (within.trans inside) part member
  · intro word pairs enclosed inside part member
    have written : ∀ pair ∈ pairs, FoundIn text pair.1 ∧ ∀ part ∈ pair.2.parts, Sourced text part := by
      intro pair among
      obtain ⟨_, within, written⟩ := enclosed.exists_word among
      cases written with
      | pair named _ _ derived =>
        have whole := within.trans inside
        refine ⟨named.foundIn (List.IsInfix.trans ?_ whole), derived.2 (List.IsInfix.trans ?_ whole)⟩
        · rw [List.append_assoc, List.append_assoc]
          exact (List.prefix_append _ _).isInfix
        · exact (List.suffix_append _ _).isInfix
    rcases mem_parts_obj.mp member with rfl | ⟨pair, among, member⟩
    · exact ⟨nodup_merge pairs, fun pair among => (written pair (mem_of_mem_merge among)).1⟩
    · exact (written pair (mem_of_mem_merge among)).2 part member

namespace Derives

variable {word : List Char} {value : Json}

theorem inRange (derived : Derives word value) :
    ∀ number ∈ value.numbers, Grammar.least ≤ number ∧ number ≤ Grammar.greatest := by
  intro number member
  exact derived.sourced (List.infix_refl word) _ (mem_numbers.mp member)

theorem foundIn (derived : Derives word value) : ∀ text ∈ value.texts, FoundIn word text := by
  have sourced := derived.sourced (List.infix_refl word)
  intro text member
  rcases mem_texts.mp member with inside | ⟨members, inside, key⟩
  · exact sourced _ inside
  · obtain ⟨pair, among, rfl⟩ := List.mem_map.mp key
    exact (sourced _ inside).2 pair among

theorem distinctKeys (derived : Derives word value) : value.DistinctKeys := by
  intro members inside
  exact (derived.sourced (List.infix_refl word) _ inside).1

end Derives

end Descent.Json
