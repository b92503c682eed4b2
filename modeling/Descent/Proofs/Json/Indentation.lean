import Descent.Proofs.Json.Spacing
import Mathlib

/-!
What is written for a value shows its nesting. Each line is indented by the number of brackets and
braces that are open on it, and apart from blanks outside strings all layouts are the same.
-/

namespace Descent.Json

structure Standing where
  quoted : Bool
  opened : Nat

namespace Standing

def next (standing : Standing) (char : Char) : Standing :=
  if char = '"' then { standing with quoted := !standing.quoted }
  else if standing.quoted then standing
  else if char = '[' ∨ char = '\x7b' then { standing with opened := standing.opened + 1 }
  else if char = ']' ∨ char = '\x7d' then { standing with opened := standing.opened - 1 }
  else standing

def breaks : Standing → List Char → List (Nat × List Char)
  | _, [] => []
  | standing, char :: rest =>
    if standing.quoted = false ∧ (char = '\r' ∨ char = '\n') then
      (standing.opened, rest) :: (standing.next char).breaks rest
    else (standing.next char).breaks rest

end Standing

def Indented (width opened : Nat) (rest : List Char) : Prop :=
  ∃ depth char more, rest = List.replicate (width * depth) ' ' ++ char :: more ∧
    isBlank char = false ∧ opened = depth + if char = ']' ∨ char = '\x7d' then 1 else 0

def entryCount : Json → Nat
  | arr values => values.length
  | obj members => members.length
  | _ => 0

def ownBreaks (value : Json) : Nat :=
  if value.entryCount = 0 then 0 else value.entryCount + 1

def breakCount (value : Json) : Nat :=
  (value.parts.map ownBreaks).sum

open Standing

variable {value : Json} {indent : Option Int} {depth count : Nat} {char : Char}
  {text word content rest : List Char}

section Breaks

theorem breaks_plain (plain : char ∉ ['"', '[', ']', '\x7b', '\x7d', '\r', '\n']) :
    breaks ⟨false, depth⟩ (char :: rest) = breaks ⟨false, depth⟩ rest := by
  simp only [List.mem_cons, List.not_mem_nil, or_false, not_or] at plain
  simp [breaks, next, plain]

theorem breaks_opening (opening : char = '[' ∨ char = '\x7b') :
    breaks ⟨false, depth⟩ (char :: rest) = breaks ⟨false, depth + 1⟩ rest := by
  rcases opening with rfl | rfl <;> simp [breaks, next]

theorem breaks_closing (closing : char = ']' ∨ char = '\x7d') :
    breaks ⟨false, depth + 1⟩ (char :: rest) = breaks ⟨false, depth⟩ rest := by
  rcases closing with rfl | rfl <;> simp [breaks, next]

theorem breaks_feed :
    breaks ⟨false, depth⟩ ('\n' :: rest) = (depth, rest) :: breaks ⟨false, depth⟩ rest := by
  simp [breaks, next]

theorem breaks_blanks (size : Nat) :
    breaks ⟨false, depth⟩ (List.replicate size ' ' ++ rest) = breaks ⟨false, depth⟩ rest := by
  induction size with
  | zero => rfl
  | succ size ih => rw [List.replicate_succ, List.cons_append, breaks_plain (by decide), ih]

theorem breaks_content (unquoted : '"' ∉ content) :
    breaks ⟨true, depth⟩ (content ++ '"' :: rest) = breaks ⟨false, depth⟩ rest := by
  induction content with
  | nil => simp [breaks, next]
  | cons char content ih =>
    rw [List.mem_cons, not_or] at unquoted
    rw [List.cons_append, breaks, next]
    simp only [Ne.symm unquoted.1, reduceIte, Bool.true_eq_false, false_and]
    exact ih unquoted.2

end Breaks

/-- Read inside so many brackets and braces, whatever follows, the text has this many line breaks of
its own, if there are any with the indent. They are indented, and what follows is read as if the text
were not there. -/
def LaidOut (indent : Option Int) (depth : Nat) (text : List Char) (count : Nat) : Prop :=
  ∀ rest, ∃ own, breaks ⟨false, depth⟩ (text ++ rest) = own ++ breaks ⟨false, depth⟩ rest ∧
    own.length = (indent.elim 0 fun _ => count) ∧
    ∀ place ∈ own, Indented (indent.getD 0).toNat place.1 place.2

theorem LaidOut.append {other : Nat} (first : LaidOut indent depth text count)
    (second : LaidOut indent depth word other) :
    LaidOut indent depth (text ++ word) (count + other) := by
  intro rest
  obtain ⟨own, read, size, law⟩ := first (word ++ rest)
  obtain ⟨more, readMore, sizeMore, lawMore⟩ := second rest
  refine ⟨own ++ more, ?_, ?_, ?_⟩
  · rw [List.append_assoc, read, readMore, List.append_assoc]
  · rw [List.length_append, size, sizeMore]
    cases indent <;> rfl
  · intro place inside
    rcases List.mem_append.mp inside with early | late
    · exact law place early
    · exact lawMore place late

/-- A text that makes no difference to what is read after it. -/
theorem laidOut_of_eq (same : ∀ rest, breaks ⟨false, depth⟩ (text ++ rest) = breaks ⟨false, depth⟩ rest) :
    LaidOut indent depth text 0 := by
  intro rest
  refine ⟨[], same rest, ?_, fun _ inside => absurd inside List.not_mem_nil⟩
  cases indent <;> rfl

def Unmarked (text : List Char) : Prop :=
  ∀ char ∈ text, char ∉ ['"', '[', ']', '\x7b', '\x7d', '\r', '\n']

instance (text : List Char) : Decidable (Unmarked text) :=
  List.decidableBAll (fun char => char ∉ ['"', '[', ']', '\x7b', '\x7d', '\r', '\n']) text

theorem laidOut_plain (plain : Unmarked text) : LaidOut indent depth text 0 := by
  refine laidOut_of_eq fun rest => ?_
  induction text with
  | nil => rfl
  | cons char text ih =>
    rw [Unmarked, List.forall_mem_cons] at plain
    rw [List.cons_append, breaks_plain plain.1, ih plain.2]

theorem laidOut_quoted (unquoted : '"' ∉ content) :
    LaidOut indent depth ('"' :: content ++ ['"']) 0 := by
  refine laidOut_of_eq fun rest => ?_
  have opening : breaks ⟨false, depth⟩ ('"' :: (content ++ '"' :: rest)) =
      breaks ⟨true, depth⟩ (content ++ '"' :: rest) := by
    simp [breaks, next]
  rw [List.cons_append, List.cons_append, List.append_assoc, List.singleton_append, opening,
    breaks_content unquoted]

def Begins (text : List Char) : Prop :=
  ∃ char more, text = char :: more ∧ isBlank char = false ∧ ¬(char = ']' ∨ char = '\x7d')

/-- A text on a line of its own, indented as deep as it is. -/
theorem LaidOut.on_line {width : Int} (laid : LaidOut (some width) depth text count)
    (begins : Begins text) :
    LaidOut (some width) depth ('\n' :: List.replicate (width.toNat * depth) ' ' ++ text)
      (count + 1) := by
  intro rest
  obtain ⟨own, read, size, law⟩ := laid rest
  obtain ⟨char, more, rfl, visible, opens⟩ := begins
  refine ⟨(depth, List.replicate (width.toNat * depth) ' ' ++ (char :: more) ++ rest) :: own,
    ?_, ?_, ?_⟩
  · simp only [List.cons_append, List.append_assoc, breaks_feed, breaks_blanks] at read ⊢
    rw [read]
  · rw [List.length_cons, size]
    rfl
  · rw [List.forall_mem_cons]
    refine ⟨⟨depth, char, more ++ rest, ?_, visible, ?_⟩, law⟩
    · rw [List.append_assoc, List.cons_append]
      rfl
    · rw [if_neg opens]
      rfl

theorem LaidOut.uncounted {other : Nat} (laid : LaidOut none depth text count) :
    LaidOut none depth text other :=
  laid

theorem toNat_mul_natCast (width : Int) (depth : Nat) : (width * depth).toNat = width.toNat * depth := by
  rcases Int.le_total 0 width with nonneg | nonpos
  · rw [Int.toNat_mul nonneg (Int.natCast_nonneg depth), Int.toNat_natCast]
  · rw [Int.toNat_of_nonpos nonpos, Nat.zero_mul]
    exact Int.toNat_of_nonpos (Int.mul_nonpos_of_nonpos_of_nonneg nonpos (Int.natCast_nonneg depth))

theorem toList_line (width : Int) (depth : Nat) : ("\n" ++ blanks (width * depth)).toList =
    '\n' :: List.replicate (width.toNat * depth) ' ' := by
  have feed : "\n".toList = ['\n'] := by decide
  rw [String.toList_append, feed, blanks, String.toList_ofList, toNat_mul_natCast,
    List.singleton_append]

theorem toList_inner_line (width : Int) (depth : Nat) :
    ("\n" ++ blanks (width * depth) ++ blanks width).toList =
      '\n' :: List.replicate (width.toNat * (depth + 1)) ' ' := by
  rw [String.toList_append, toList_line, blanks, String.toList_ofList, List.cons_append,
    List.replicate_append_replicate, Nat.mul_add, Nat.mul_one]

/-- What stands before an entry, be it the first one or a later one, puts it on its line. -/
theorem exists_lead (indent : Option Int) (depth : Nat) :
    ∃ lead, (spacing indent depth).between.toList = ',' :: lead ∧
      ∀ before, before = (spacing indent depth).opening.toList ∨ before = lead →
        ∀ text count, Begins text → LaidOut indent (depth + 1) text count →
          LaidOut indent (depth + 1) (before ++ text) (count + 1) := by
  cases indent with
  | none =>
    refine ⟨[' '], show ", ".toList = _ by decide, ?_⟩
    rintro before (rfl | rfl) text count _ laid
    · exact laid.uncounted
    · have space : LaidOut none (depth + 1) [' '] 0 := laidOut_plain (by decide)
      exact (space.append laid).uncounted
  | some width =>
    refine ⟨'\n' :: List.replicate (width.toNat * (depth + 1)) ' ', ?_, ?_⟩
    · rw [spacing, String.toList_append, toList_inner_line]
      rfl
    · rintro before place text count begins laid
      have same : before = '\n' :: List.replicate (width.toNat * (depth + 1)) ' ' := by
        rcases place with rfl | rfl
        · exact toList_inner_line width depth
        · rfl
      rw [same]
      exact laid.on_line begins

theorem laidOut_intercalate {α : Type} {between : String} {lead before : List Char}
    (comma : between.toList = ',' :: lead) (render : α → String) (counts : α → Nat)
    {values : List α} (some : values ≠ [])
    (first : ∀ value ∈ values, LaidOut indent depth (before ++ (render value).toList) (counts value))
    (later : ∀ value ∈ values, LaidOut indent depth (lead ++ (render value).toList) (counts value)) :
    LaidOut indent depth (before ++ (between.intercalate (values.map render)).toList)
      (values.map counts).sum := by
  induction values generalizing before with
  | nil => exact absurd rfl some
  | cons value rest ih =>
    have laid := first value List.mem_cons_self
    rw [List.forall_mem_cons] at later
    cases rest with
    | nil => simpa using laid
    | cons next others =>
      have list := ih (List.cons_ne_nil _ _) later.2 later.2
      have mark : LaidOut indent depth [','] 0 := laidOut_plain (by decide)
      have joined := laid.append (mark.append list)
      rw [Nat.zero_add] at joined
      rw [toList_intercalate_cons comma, List.map_cons (f := counts), List.sum_cons]
      simpa only [List.append_assoc] using joined

/-- The closing mark stands on a line of its own, indented one less than what it closes. -/
theorem exists_breaks_closing (indent : Option Int) (depth : Nat) (rest : List Char)
    (closing : char = ']' ∨ char = '\x7d') :
    ∃ own, breaks ⟨false, depth + 1⟩ ((spacing indent depth).closing.toList ++ char :: rest) =
        own ++ breaks ⟨false, depth⟩ rest ∧
      own.length = (indent.elim 0 fun _ => 1) ∧
      ∀ place ∈ own, Indented (indent.getD 0).toNat place.1 place.2 := by
  cases indent with
  | none => exact ⟨[], breaks_closing closing, rfl, fun _ inside => absurd inside List.not_mem_nil⟩
  | some width =>
    have visible : isBlank char = false := by rcases closing with rfl | rfl <;> decide
    refine ⟨[(depth + 1, List.replicate (width.toNat * depth) ' ' ++ char :: rest)], ?_, rfl, ?_⟩
    · rw [spacing, toList_line, List.cons_append, breaks_feed, breaks_blanks, breaks_closing closing]
      rfl
    · rintro place inside
      rw [List.mem_singleton.mp inside]
      exact ⟨depth, char, rest, rfl, visible, by rw [if_pos closing]⟩

theorem laidOut_enclose {α : Type} {left right : String} {opening closing : Char}
    (opens : left.toList = [opening]) (closes : right.toList = [closing])
    (isOpening : opening = '[' ∨ opening = '\x7b') (isClosing : closing = ']' ∨ closing = '\x7d')
    (render : α → String) (counts : α → Nat) {values : List α} (some : values ≠ [])
    (begins : ∀ value ∈ values, Begins (render value).toList)
    (laid : ∀ value ∈ values, LaidOut indent (depth + 1) (render value).toList (counts value)) :
    LaidOut indent depth (enclose (spacing indent depth) left right (values.map render)).toList
      ((values.map fun value => counts value + 1).sum + 1) := by
  obtain ⟨lead, comma, leads⟩ := exists_lead indent depth
  have list : LaidOut indent (depth + 1) ((spacing indent depth).opening.toList ++
      ((spacing indent depth).between.intercalate (values.map render)).toList) _ :=
    laidOut_intercalate comma render (fun value => counts value + 1) some
      (fun value inside => leads _ (.inl rfl) _ _ (begins value inside) (laid value inside))
      (fun value inside => leads _ (.inr rfl) _ _ (begins value inside) (laid value inside))
  intro rest
  obtain ⟨last, readLast, sizeLast, lawLast⟩ := exists_breaks_closing indent depth rest isClosing
  obtain ⟨own, read, size, law⟩ := list ((spacing indent depth).closing.toList ++ closing :: rest)
  refine ⟨own ++ last, ?_, ?_, ?_⟩
  · rw [List.append_assoc, ← readLast, ← read]
    simp only [enclose, String.toList_append, opens, closes, List.append_assoc, List.cons_append,
      List.nil_append, breaks_opening isOpening]
  · rw [List.length_append, size, sizeLast]
    cases indent <;> rfl
  · intro place inside
    rcases List.mem_append.mp inside with early | late
    · exact law place early
    · exact lawLast place late

theorem begins_number (number : Int) : Begins (toString number).toList := by
  obtain ⟨char, more, shown, signOrDigit⟩ := (numberWord_toString number).opens
  refine ⟨char, more, shown, Bool.eq_false_iff.mpr fun blank => ?_, ?_⟩
  · rcases signOrDigit with rfl | digit
    · exact absurd blank (by decide)
    · exact absurd digit (Bool.eq_false_iff.mp (isDigit_of_isBlank blank))
  · rintro (rfl | rfl) <;> exact absurd signOrDigit (by decide)

theorem begins_enclose {spacing : Spacing} {left right : String} {entries : List String}
    (opens : left.toList = [char]) (visible : isBlank char = false)
    (opening : ¬(char = ']' ∨ char = '\x7d')) :
    Begins (enclose spacing left right entries).toList := by
  refine ⟨char, (spacing.opening ++ spacing.between.intercalate entries ++ spacing.closing ++
    right).toList, ?_, visible, opening⟩
  simp only [enclose, String.toList_append, opens, List.append_assoc, List.cons_append,
    List.nil_append]

theorem begins_renderAt (indent : Option Int) (depth : Nat) (value : Json) :
    Begins (renderAt indent depth value).toList := by
  have bracket : "[".toList = ['['] := by decide
  have brace : "\x7b".toList = ['\x7b'] := by decide
  cases value with
  | null =>
    refine ⟨'n', "ull".toList, ?_, by decide, by decide⟩
    rw [renderAt]
    decide
  | bool value =>
    cases value
    · refine ⟨'f', "alse".toList, ?_, by decide, by decide⟩
      rw [renderAt]
      decide
    · refine ⟨'t', "rue".toList, ?_, by decide, by decide⟩
      rw [renderAt]
      decide
  | num value =>
    rw [renderAt]
    exact begins_number value
  | str value =>
    rw [renderAt, toList_quoted]
    exact ⟨'"', _, rfl, by decide, by decide⟩
  | arr values =>
    by_cases none : values = []
    · refine ⟨'[', [']'], ?_, by decide, by decide⟩
      rw [none, renderAt]
      decide
    · rw [renderAt_arr indent depth none]
      exact begins_enclose bracket (by decide) (by decide)
  | obj members =>
    by_cases none : members = []
    · refine ⟨'\x7b', ['\x7d'], ?_, by decide, by decide⟩
      rw [none, renderAt]
      decide
    · rw [renderAt_obj indent depth none]
      exact begins_enclose brace (by decide) (by decide)

theorem sum_partsAll (values : List Json) :
    (values.map fun value => value.breakCount + 1).sum =
      ((partsAll values).map ownBreaks).sum + values.length := by
  induction values with
  | nil => rfl
  | cons value rest ih =>
    rw [List.map_cons, List.sum_cons, ih, partsAll, List.map_append, List.sum_append,
      List.length_cons, breakCount]
    omega

theorem sum_partsMembers (members : List (String × Json)) :
    (members.map fun member => member.2.breakCount + 1).sum =
      ((partsMembers members).map ownBreaks).sum + members.length := by
  induction members with
  | nil => rfl
  | cons member rest ih =>
    rw [List.map_cons, List.sum_cons, ih, partsMembers, List.map_append, List.sum_append,
      List.length_cons, breakCount]
    omega

theorem breakCount_arr {values : List Json} (some : values ≠ []) :
    (arr values).breakCount = (values.map fun value => value.breakCount + 1).sum + 1 := by
  have size : values.length ≠ 0 := mt List.length_eq_zero_iff.mp some
  rw [sum_partsAll, breakCount, parts, List.map_cons, List.sum_cons, ownBreaks, entryCount,
    if_neg size]
  omega

theorem breakCount_obj {members : List (String × Json)} (some : members ≠ []) :
    (obj members).breakCount = (members.map fun member => member.2.breakCount + 1).sum + 1 := by
  have size : members.length ≠ 0 := mt List.length_eq_zero_iff.mp some
  rw [sum_partsMembers, breakCount, parts, List.map_cons, List.sum_cons, ownBreaks, entryCount,
    if_neg size]
  omega

theorem laidOut_number (number : Int) : LaidOut indent depth (toString number).toList 0 := by
  refine laidOut_plain fun char inside special => ?_
  have signOrDigit := (numberWord_toString number).signs_or_digits char inside
  have marks : ∀ mark ∈ ['"', '[', ']', '\x7b', '\x7d', '\r', '\n'],
      ¬(mark = '-' ∨ mark.isDigit = true) := by simp
  exact marks char special signOrDigit

/-- An array or object without entries. -/
theorem laidOut_empty {opening closing : Char} (isOpening : opening = '[' ∨ opening = '\x7b')
    (isClosing : closing = ']' ∨ closing = '\x7d') : LaidOut indent depth [opening, closing] 0 :=
  laidOut_of_eq fun _ => (breaks_opening isOpening).trans (breaks_closing isClosing)

theorem begins_renderMember (indent : Option Int) (depth : Nat) (member : String × Json) :
    Begins (renderMember indent depth member).toList := by
  rw [toList_renderMember]
  exact ⟨'"', _, rfl, by decide, by decide⟩

theorem laidOut_renderMember (member : String × Json) (unquoted : '"' ∉ member.1.toList)
    (laid : LaidOut indent depth (renderAt indent depth member.2).toList count) :
    LaidOut indent depth (renderMember indent depth member).toList count := by
  have name : LaidOut indent depth ('"' :: member.1.toList ++ ['"']) 0 := laidOut_quoted unquoted
  have colon : LaidOut indent depth [':', ' '] 0 := laidOut_plain (by decide)
  have joined := (name.append colon).append laid
  rw [Nat.zero_add] at joined
  rw [toList_renderMember]
  exact joined

theorem laidOut_renderAt (indent : Option Int) (depth : Nat) {value : Json}
    (unquoted : ∀ text ∈ value.texts, '"' ∉ text.toList) :
    LaidOut indent depth (renderAt indent depth value).toList value.breakCount := by
  induction value generalizing depth with
  | null =>
    rw [renderAt]
    exact laidOut_plain (by decide)
  | bool value =>
    rw [renderAt]
    cases value <;> exact laidOut_plain (by decide)
  | num value =>
    rw [renderAt]
    exact laidOut_number value
  | str value =>
    rw [renderAt, toList_quoted]
    exact laidOut_quoted (unquoted value (mem_texts.mpr (.inl (mem_parts_self _))))
  | arr values ih =>
    have bracket : "[".toList = ['['] := by decide
    have closer : "]".toList = [']'] := by decide
    by_cases none : values = []
    · rw [none, renderAt]
      exact laidOut_empty (.inl rfl) (.inl rfl)
    · rw [renderAt_arr indent depth none, breakCount_arr none]
      refine laidOut_enclose bracket closer (.inl rfl) (.inl rfl) _ breakCount none
        (fun value _ => begins_renderAt indent (depth + 1) value) fun value inside => ?_
      exact ih value inside (depth + 1) fun text deep =>
        unquoted text (texts_subset_of_parts (parts_subset_arr inside) deep)
  | obj members ih =>
    have brace : "\x7b".toList = ['\x7b'] := by decide
    have closer : "\x7d".toList = ['\x7d'] := by decide
    by_cases none : members = []
    · rw [none, renderAt]
      exact laidOut_empty (.inr rfl) (.inr rfl)
    · rw [renderAt_obj indent depth none, breakCount_obj none]
      refine laidOut_enclose brace closer (.inr rfl) (.inr rfl) _ (fun member => member.2.breakCount)
        none (fun member _ => begins_renderMember indent (depth + 1) member) fun member inside => ?_
      refine laidOut_renderMember member (unquoted _ (key_mem_texts inside)) ?_
      exact ih member inside (depth + 1) fun text deep =>
        unquoted text (texts_subset_of_parts (parts_subset_obj inside) deep)

/-- Outside quoted strings a value without an indent is written on one line; with one, each entry of
an array or object has a line of its own, and the line breaks are followed by one indent for each array
or object that is still open. Apart from blanks outside strings, the indent makes no difference. -/
theorem layout_follows_nesting (value : Json) (unquoted : ∀ text ∈ value.texts, '"' ∉ text.toList) :
    Standing.breaks ⟨false, 0⟩ (render none value).toList = [] ∧
    (∀ width : Int,
      (∀ place ∈ Standing.breaks ⟨false, 0⟩ (render (some width) value).toList,
        Indented width.toNat place.1 place.2) ∧
      (Standing.breaks ⟨false, 0⟩ (render (some width) value).toList).length = value.breakCount) ∧
    ∀ indent other, unspaced false (render indent value).toList =
      unspaced false (render other value).toList := by
  have laid : ∀ indent, (breaks ⟨false, 0⟩ (render indent value).toList).length =
        (indent.elim 0 fun _ => value.breakCount) ∧
      ∀ place ∈ breaks ⟨false, 0⟩ (render indent value).toList,
        Indented (indent.getD 0).toNat place.1 place.2 := by
    intro indent
    obtain ⟨own, read, size, law⟩ := laidOut_renderAt indent 0 unquoted []
    rw [List.append_nil, breaks, List.append_nil] at read
    rw [render, read]
    exact ⟨size, law⟩
  refine ⟨List.length_eq_zero_iff.mp (laid none).1, fun width => ?_, fun indent other => ?_⟩
  · exact ⟨(laid (some width)).2, (laid (some width)).1⟩
  · have same := spacedAlike_renderAt indent other 0 0 unquoted [] [] rfl
    rwa [List.append_nil, List.append_nil] at same

def nestedBrackets : Json :=
  .arr [.obj [("[", .str "a\n ]"), (" ", .arr [])], .num (-7)]

theorem nestedBrackets_layout :
    (∀ text ∈ nestedBrackets.texts, '"' ∉ text.toList) ∧
      (Standing.breaks ⟨false, 0⟩ (render (some (-1)) nestedBrackets).toList).length = 6 ∧
      unspaced false (render (some 2) nestedBrackets).toList =
        unspaced false (render none nestedBrackets).toList := by
  have unquoted : ∀ text ∈ nestedBrackets.texts, '"' ∉ text.toList := by decide
  have count : nestedBrackets.breakCount = 6 := by decide
  obtain ⟨_, indented, bare⟩ := layout_follows_nesting nestedBrackets unquoted
  exact ⟨unquoted, (indented (-1)).2.trans count, bare (some 2) none⟩

end Descent.Json
