import Descent.Json.Layout
import Descent.Proofs.Json.Contents
import Descent.Proofs.Json.Derivation

/-!
What is written for a value derives the value, whatever the layout.
-/

namespace Descent.Json

variable {α : Type}

structure Carried (value : Json) : Prop where
  inRange : ∀ number ∈ value.numbers, Grammar.least ≤ number ∧ number ≤ Grammar.greatest
  unquoted : ∀ text ∈ value.texts, '"' ∉ text.toList
  distinctKeys : value.DistinctKeys

theorem Carried.of_subset {value part : Json} (carried : value.Carried)
    (subset : part.parts ⊆ value.parts) : part.Carried where
  inRange := fun number member => carried.inRange number
    (mem_numbers.mpr (subset (mem_numbers.mp member)))
  unquoted := fun text member => carried.unquoted text (texts_subset_of_parts subset member)
  distinctKeys := fun members inside => carried.distinctKeys members (subset inside)

theorem numberWord_toString (value : Int) : NumberWord (toString value).toList value := by
  have run : DigitRun (Nat.toDigits 10 value.natAbs) :=
    ⟨Nat.toDigits_ne_nil, fun _ member => Nat.isDigit_of_mem_toDigits (by omega) (by omega) member⟩
  have size : Nat.ofDigitChars 10 (Nat.toDigits 10 value.natAbs) 0 = value.natAbs :=
    Nat.ofDigitChars_ten_toDigits
  rw [Int.toString_eq_repr, Int.repr_eq_if]
  split
  · rename_i nonneg
    have written := NumberWord.plain run
    rw [size] at written
    have same : value.toNat = value.natAbs := by omega
    have whole : (value.natAbs : Int) = value := by omega
    rw [whole] at written
    rw [same, Nat.toList_repr]
    exact written
  · rename_i negative
    have written := NumberWord.negative run
    rw [size] at written
    have same : (-value).toNat = value.natAbs := by omega
    have whole : -(value.natAbs : Int) = value := by omega
    rw [whole] at written
    rw [same, String.toList_append, Nat.toList_repr]
    exact written

theorem blankRun_nil : BlankRun [] :=
  fun _ member => absurd member List.not_mem_nil

theorem blankRun_space : BlankRun [' '] := by
  intro char member
  rw [List.mem_singleton.mp member]
  decide

theorem blankRun_blanks (count : Int) : BlankRun (blanks count).toList := by
  intro char member
  rw [blanks, String.toList_ofList] at member
  rw [List.eq_of_mem_replicate member]
  decide

theorem blankRun_line (count : Int) : BlankRun ("\n" ++ blanks count).toList := by
  rw [String.toList_append]
  refine BlankRun.append ?_ (blankRun_blanks count)
  intro char member
  rw [List.mem_singleton.mp member]
  decide

structure BlankSpacing (spacing : Spacing) : Prop where
  opening : BlankRun spacing.opening.toList
  between : ∃ after, spacing.between.toList = ',' :: after ∧ BlankRun after
  closing : BlankRun spacing.closing.toList

theorem blankSpacing (indent : Option Int) (depth : Nat) : BlankSpacing (spacing indent depth) := by
  cases indent with
  | none =>
    exact ⟨blankRun_nil, ⟨[' '], show ", ".toList = _ by decide, blankRun_space⟩, blankRun_nil⟩
  | some width =>
    have outer := blankRun_line (width * depth)
    have inner : BlankRun ("\n" ++ blanks (width * depth) ++ blanks width).toList := by
      rw [String.toList_append]
      exact outer.append (blankRun_blanks width)
    refine ⟨inner, ⟨_, ?_, inner⟩, outer⟩
    rw [spacing, String.toList_append]
    rfl

theorem toList_intercalate_cons {between : String} {after : List Char}
    (comma : between.toList = ',' :: after) (render : α → String) (value next : α)
    (rest : List α) : (between.intercalate ((value :: next :: rest).map render)).toList =
      (render value).toList ++ ([','] ++ after) ++
        (between.intercalate ((next :: rest).map render)).toList := by
  rw [List.map_cons, List.map_cons, String.intercalate_cons_cons, String.toList_append,
    String.toList_append, comma, List.singleton_append]

theorem entryList_intercalate {entry : List Char → α → Prop} {between : String}
    {after : List Char} (comma : between.toList = ',' :: after) (run : BlankRun after)
    (render : α → String) {values : List α} (some : values ≠ [])
    (written : ∀ value ∈ values, entry (render value).toList value) :
    EntryList entry (between.intercalate (values.map render)).toList values := by
  induction values with
  | nil => exact absurd rfl some
  | cons value rest ih =>
    have first := written value List.mem_cons_self
    cases rest with
    | nil =>
      rw [List.map_singleton, String.intercalate_singleton]
      exact .one first
    | cons next others =>
      have list := ih (List.cons_ne_nil _ _) fun value member =>
        written value (List.mem_cons_of_mem _ member)
      have joined := EntryList.more first blankRun_nil run list
      rw [List.append_nil] at joined
      rw [toList_intercalate_cons comma]
      exact joined

theorem enclosed_enclose {entry : List Char → α → Prop} {spacing : Spacing}
    (blank : BlankSpacing spacing) {left right : String} {opening closing : Char}
    (opens : left.toList = [opening]) (closes : right.toList = [closing]) (render : α → String)
    {values : List α} (some : values ≠ [])
    (written : ∀ value ∈ values, entry (render value).toList value) :
    Enclosed opening closing entry (enclose spacing left right (values.map render)).toList values := by
  obtain ⟨after, comma, run⟩ := blank.between
  have list := entryList_intercalate comma run render some written
  have whole : Enclosed opening closing entry _ values :=
    .entries blank.opening list blank.closing
  simpa only [enclose, String.toList_append, opens, closes, List.cons_append, List.nil_append]
    using whole

def renderMember (indent : Option Int) (depth : Nat) (member : String × Json) : String :=
  "\"" ++ member.1 ++ "\": " ++ renderAt indent depth member.2

theorem renderAll_eq (indent : Option Int) (depth : Nat) (values : List Json) :
    renderAll indent depth values = values.map (renderAt indent depth) := by
  induction values with
  | nil => rfl
  | cons value rest ih => rw [renderAll, ih, List.map_cons]

theorem renderMembers_eq (indent : Option Int) (depth : Nat) (members : List (String × Json)) :
    renderMembers indent depth members = members.map (renderMember indent depth) := by
  induction members with
  | nil => rfl
  | cons member rest ih => rw [renderMembers, ih, List.map_cons, renderMember]

theorem renderAt_arr (indent : Option Int) (depth : Nat) {values : List Json}
    (some : values ≠ []) : renderAt indent depth (arr values) =
      enclose (spacing indent depth) "[" "]" (values.map (renderAt indent (depth + 1))) := by
  cases values with
  | nil => exact absurd rfl some
  | cons value rest => rw [renderAt, renderAll_eq, List.map_cons]

theorem renderAt_obj (indent : Option Int) (depth : Nat) {members : List (String × Json)}
    (some : members ≠ []) : renderAt indent depth (obj members) =
      enclose (spacing indent depth) "\x7b" "\x7d"
        (members.map (renderMember indent (depth + 1))) := by
  cases members with
  | nil => exact absurd rfl some
  | cons member rest =>
    obtain ⟨key, value⟩ := member
    rw [renderAt, renderMembers_eq, List.map_cons, renderMember]

theorem toList_quoted (content : String) :
    ("\"" ++ content ++ "\"").toList = '"' :: content.toList ++ ['"'] := by
  have quote : "\"".toList = ['"'] := by decide
  rw [String.toList_append, String.toList_append, quote, List.singleton_append]

theorem toList_renderMember (indent : Option Int) (depth : Nat) (member : String × Json) :
    (renderMember indent depth member).toList =
      '"' :: member.1.toList ++ ['"'] ++ [':', ' '] ++ (renderAt indent depth member.2).toList := by
  have quote : "\"".toList = ['"'] := by decide
  have colon : "\": ".toList = ['"', ':', ' '] := by decide
  simp only [renderMember, String.toList_append, quote, colon, List.append_assoc, List.cons_append,
    List.nil_append]

theorem stringWord_quoted {content : String} (unquoted : '"' ∉ content.toList) :
    StringWord ("\"" ++ content ++ "\"").toList content := by
  have word := StringWord.quoted unquoted
  rw [String.ofList_toList] at word
  rw [toList_quoted]
  exact word

theorem memberWord_renderMember (indent : Option Int) (depth : Nat) {member : String × Json}
    (unquoted : '"' ∉ member.1.toList)
    (derived : Derives (renderAt indent depth member.2).toList member.2) :
    MemberWord Derives (renderMember indent depth member).toList member := by
  have word := MemberWord.pair (stringWord_quoted unquoted) blankRun_nil blankRun_space derived
  rw [toList_quoted] at word
  rw [toList_renderMember]
  simpa only [List.append_assoc, List.cons_append, List.nil_append] using word

/-- The members of an object are the pairs of its text. -/
theorem enclosed_renderMembers (indent : Option Int) (depth : Nat) {members : List (String × Json)}
    (unquoted : ∀ member ∈ members, '"' ∉ member.1.toList)
    (derived : ∀ member ∈ members, Derives (renderAt indent (depth + 1) member.2).toList member.2) :
    Enclosed '\x7b' '\x7d' (MemberWord Derives) (renderAt indent depth (obj members)).toList
      members := by
  by_cases none : members = []
  · subst none
    have empty : (renderAt indent depth (obj [])).toList = '\x7b' :: [] ++ ['\x7d'] := by
      rw [renderAt]
      decide
    rw [empty]
    exact .empty blankRun_nil
  · rw [renderAt_obj indent depth none]
    refine enclosed_enclose (blankSpacing indent depth) (by decide) (by decide) _ none ?_
    exact fun member inside =>
      memberWord_renderMember indent (depth + 1) (unquoted member inside) (derived member inside)

theorem derives_renderAt (indent : Option Int) (depth : Nat) {value : Json}
    (carried : value.Carried) : Derives (renderAt indent depth value).toList value := by
  induction value generalizing depth with
  | null => exact .null
  | bool value =>
    cases value
    · exact .no
    · exact .yes
  | num value =>
    have range := carried.inRange value (mem_numbers.mpr (mem_parts_self _))
    exact .number (numberWord_toString value) range.1 range.2
  | str value =>
    exact .string (stringWord_quoted (carried.unquoted value (mem_texts.mpr (.inl (mem_parts_self _)))))
  | arr values ih =>
    apply Derives.array
    by_cases none : values = []
    · subst none
      have empty : (renderAt indent depth (arr [])).toList = '[' :: [] ++ [']'] := by
        rw [renderAt]
        decide
      rw [empty]
      exact .empty blankRun_nil
    · rw [renderAt_arr indent depth none]
      refine enclosed_enclose (blankSpacing indent depth) (by decide) (by decide) _ none ?_
      intro value inside
      exact ih value inside (depth + 1) (carried.of_subset (parts_subset_arr inside))
  | obj members ih =>
    have distinct := carried.distinctKeys members (mem_parts_self _)
    have written := enclosed_renderMembers indent depth
      (fun member inside => carried.unquoted _ (key_mem_texts inside))
      fun member inside => ih member inside (depth + 1) (carried.of_subset (parts_subset_obj inside))
    have derived := Derives.object written
    rwa [ofPairs, merge_of_nodup distinct] at derived

end Descent.Json
