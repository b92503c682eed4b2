import Descent.Json.Grammar

/-!
The JSON grammar as a relation between words and what they denote, with its induction principle.
-/

namespace Descent.Json

variable {α : Type}

def BlankRun (word : List Char) : Prop :=
  ∀ char ∈ word, isBlank char = true

def DigitRun (word : List Char) : Prop :=
  word ≠ [] ∧ ∀ char ∈ word, char.isDigit = true

def startsWithDigit (text : List Char) : Bool :=
  text.head?.any Char.isDigit

def startsWithBlank (text : List Char) : Bool :=
  text.head?.any isBlank

inductive NumberWord : List Char → Int → Prop
  | plain {digits} : DigitRun digits → NumberWord digits (Nat.ofDigitChars 10 digits 0)
  | negative {digits} : DigitRun digits →
      NumberWord ('-' :: digits) (-(Nat.ofDigitChars 10 digits 0))

inductive StringWord : List Char → String → Prop
  | quoted {content} : '"' ∉ content →
      StringWord ('"' :: content ++ ['"']) (String.ofList content)

inductive EntryList (entry : List Char → α → Prop) : List Char → List α → Prop
  | one {word value} : entry word value → EntryList entry word [value]
  | more {word value before after others values} : entry word value → BlankRun before →
      BlankRun after → EntryList entry others values →
      EntryList entry (word ++ before ++ ',' :: after ++ others) (value :: values)

inductive Enclosed (left right : Char) (entry : List Char → α → Prop) : List Char → List α → Prop
  | empty {blanks} : BlankRun blanks → Enclosed left right entry (left :: blanks ++ [right]) []
  | entries {before body values after} : BlankRun before → EntryList entry body values →
      BlankRun after → Enclosed left right entry (left :: before ++ body ++ after ++ [right]) values

inductive MemberWord (value : List Char → Json → Prop) : List Char → String × Json → Prop
  | pair {name key before after word member} : StringWord name key → BlankRun before →
      BlankRun after → value word member →
      MemberWord value (name ++ before ++ ':' :: after ++ word) (key, member)

inductive Derives : List Char → Json → Prop
  | null : Derives "null".toList .null
  | yes : Derives "true".toList (.bool true)
  | no : Derives "false".toList (.bool false)
  | number {word number} : NumberWord word number → Grammar.least ≤ number →
      number ≤ Grammar.greatest → Derives word (.num number)
  | string {word content} : StringWord word content → Derives word (.str content)
  | array {word values} : Enclosed '[' ']' Derives word values → Derives word (.arr values)
  | object {word pairs} : Enclosed '\x7b' '\x7d' (MemberWord Derives) word pairs →
      Derives word (ofPairs pairs)

theorem isDigit_of_isBlank {char : Char} (blank : isBlank char = true) : char.isDigit = false := by
  rw [Bool.eq_false_iff]
  intro digit
  have bounds := Char.isDigit_iff_toNat.mp digit
  simp only [isBlank, blankRanges, List.any_cons, List.any_nil, Bool.or_eq_true, Bool.and_eq_true,
    decide_eq_true_eq, Bool.false_eq_true, or_false] at blank
  simp only [Char.reduceToNat] at bounds
  omega

theorem BlankRun.append {first second : List Char} (left : BlankRun first)
    (right : BlankRun second) : BlankRun (first ++ second) := by
  intro char member
  rcases List.mem_append.mp member with member | member
  · exact left char member
  · exact right char member

theorem Enclosed.two_le_length {left right : Char} {entry : List Char → α → Prop}
    {word : List Char} {values : List α} (enclosed : Enclosed left right entry word values) :
    2 ≤ word.length := by
  cases enclosed <;> simp only [List.length_append, List.length_cons] <;> omega

section Monotone

variable {entry other : List Char → α → Prop} {word : List Char} {values : List α}

theorem EntryList.imp (list : EntryList entry word values)
    (step : ∀ part value, part.length ≤ word.length → entry part value → other part value) :
    EntryList other word values := by
  induction list with
  | one first => exact .one (step _ _ (Nat.le_refl _) first)
  | more first before after _ ih =>
    refine .more (step _ _ ?_ first) before after (ih fun part value shorter => ?_)
    · simp only [List.length_append]
      omega
    · apply step
      simp only [List.length_append, List.length_cons]
      omega

theorem Enclosed.imp {left right : Char} (enclosed : Enclosed left right entry word values)
    (step : ∀ part value, part.length < word.length → entry part value → other part value) :
    Enclosed left right other word values := by
  cases enclosed with
  | empty blanks => exact .empty blanks
  | entries before list after =>
    refine .entries before (list.imp fun part value shorter => step part value ?_) after
    simp only [List.length_append, List.length_cons]
    omega

theorem MemberWord.imp {first second : List Char → Json → Prop} {member : String × Json}
    (pair : MemberWord first word member)
    (step : ∀ part value, part.length < word.length → first part value → second part value) :
    MemberWord second word member := by
  cases pair with
  | pair name before after derived =>
    refine .pair name before after (step _ _ ?_ derived)
    simp only [List.length_append, List.length_cons]
    omega

end Monotone

/-- What every derivation has if it has it whenever the derivations inside it have it. -/
theorem Derives.induct {P : List Char → Json → Prop} (null : P "null".toList .null)
    (yes : P "true".toList (.bool true)) (no : P "false".toList (.bool false))
    (number : ∀ word number, NumberWord word number → Grammar.least ≤ number →
      number ≤ Grammar.greatest → P word (.num number))
    (string : ∀ word content, StringWord word content → P word (.str content))
    (array : ∀ word values, Enclosed '[' ']' (fun part value => Derives part value ∧ P part value)
      word values → P word (.arr values))
    (object : ∀ word pairs, Enclosed '\x7b' '\x7d'
      (MemberWord fun part value => Derives part value ∧ P part value) word pairs →
      P word (ofPairs pairs))
    {word : List Char} {value : Json} (derived : Derives word value) : P word value := by
  induction length : word.length using Nat.strongRecOn generalizing word value with
  | ind count ih =>
    cases derived with
    | null => exact null
    | yes => exact yes
    | no => exact no
    | number digits lower upper => exact number _ _ digits lower upper
    | string quoted => exact string _ _ quoted
    | array enclosed =>
      apply array
      exact enclosed.imp fun part value shorter inside =>
        ⟨inside, ih _ (length ▸ shorter) inside rfl⟩
    | object enclosed =>
      apply object
      refine enclosed.imp fun part member shorter pair =>
        pair.imp fun last value within inside => ?_
      exact ⟨inside, ih _ (by omega) inside rfl⟩

theorem NumberWord.opens {word : List Char} {number : Int} (written : NumberWord word number) :
    ∃ char more, word = char :: more ∧ (char = '-' ∨ char.isDigit = true) := by
  cases written with
  | plain run =>
    cases word with
    | nil => exact absurd rfl run.1
    | cons digit more => exact ⟨digit, more, rfl, .inr (run.2 digit List.mem_cons_self)⟩
  | negative => exact ⟨'-', _, rfl, .inl rfl⟩

theorem Derives.opens {word : List Char} {value : Json} (derived : Derives word value) :
    ∃ char more, word = char :: more ∧ isBlank char = false := by
  cases derived with
  | null => exact ⟨'n', _, rfl, by decide⟩
  | yes => exact ⟨'t', _, rfl, by decide⟩
  | no => exact ⟨'f', _, rfl, by decide⟩
  | number written =>
    obtain ⟨char, more, rfl, signOrDigit⟩ := written.opens
    refine ⟨char, more, rfl, Bool.eq_false_iff.mpr fun blank => ?_⟩
    rcases signOrDigit with rfl | isDigit
    · exact absurd blank (by decide)
    · rw [isDigit_of_isBlank blank] at isDigit
      exact nomatch isDigit
  | string quoted =>
    cases quoted with
    | quoted => exact ⟨'"', _, rfl, by decide⟩
  | array enclosed => cases enclosed <;> exact ⟨'[', _, rfl, by decide⟩
  | object enclosed => cases enclosed <;> exact ⟨'\x7b', _, rfl, by decide⟩

end Descent.Json
