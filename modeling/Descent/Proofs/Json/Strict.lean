import Descent.Json.Document
import Descent.Proofs.Json.Nesting
import Descent.Proofs.Pattern.Locality

/-!
Strict readings of a document. Where something follows the value, the place that is reported is that
of the first character too many, and the text up to it is a document for the same value.
-/

namespace Descent.Json

open Grammar

variable {value : Json}

theorem readWithin_eq {depth : Nat} (strict : Bool) {text : String}
    (enough : OpeningsBelow depth (View.of text)) :
    readWithin depth strict text =
      match Grammar.value (if strict then ((View.of text).span isBlank).2 else View.of text) with
      | .matched value rest =>
        if strict && !((rest.span isBlank).2).isEmpty then
          .error (.trailing ((rest.span isBlank).2).offset)
        else .ok value
      | _ => .error .noMatch := by
  generalize chosen : (if strict then ((View.of text).span isBlank).2 else View.of text) = start
  have reaches : (View.of text).Reaches start := by
    rw [← chosen]
    split
    · exact (View.splits_span _ _).reaches
    · exact .refl _
  have unbounded := reader_value.valueWithin_eq (openingsBelow_lasting depth reaches enough)
  have settled := (value_stays View.lasting_true start trivial).settled
  simp only [readWithin, chosen, unbounded]
  rcases settled with ⟨found, rest, parsed⟩ | noMatch
  · simp only [parsed]
  · simp only [noMatch]

/-- A document is read as if values could nest without a bound. -/
theorem read_eq (strict : Bool) (text : String) :
    read strict text =
      match Grammar.value (if strict then ((View.of text).span isBlank).2 else View.of text) with
      | .matched value rest =>
        if strict && !((rest.span isBlank).2).isEmpty then
          .error (.trailing ((rest.span isBlank).2).offset)
        else .ok value
      | _ => .error .noMatch := by
  have whole : (View.of text).length = text.length := by
    rw [← View.length_chars, View.of, View.chars_ofChars, String.length_toList]
  have openings := openings_le_length (View.of text)
  rw [read, readWithin_eq]
  simp only [OpeningsBelow]
  omega

theorem readWithin_ne_tooDeep {depth : Nat} (strict : Bool) {text : String}
    (enough : OpeningsBelow depth (View.of text)) :
    readWithin depth strict text ≠ .error .tooDeep := by
  rw [readWithin_eq strict enough]
  split
  · split <;> simp
  · simp

/-- A bound on the nesting that is not hit makes no difference. -/
theorem readWithin_eq_read {depth : Nat} {strict : Bool} {text : String}
    (within : readWithin depth strict text ≠ .error .tooDeep) :
    readWithin depth strict text = read strict text := by
  rw [read_eq]
  rw [readWithin] at within ⊢
  generalize (if strict then ((View.of text).span isBlank).2 else View.of text) = start at within ⊢
  have ended : valueWithin depth start ≠ .exhausted := by
    intro exhausted
    rw [exhausted] at within
    exact within rfl
  rw [valueWithin_eq_value ended]
  rcases (value_stays View.lasting_true start trivial).settled with ⟨found, rest, parsed⟩ | refused
  · simp only [parsed]
  · simp only [refused]

theorem startsWithDigit_of_blankRun {blanks : List Char} (run : BlankRun blanks) :
    startsWithDigit blanks = false := by
  have ends : startsWithDigit (blanks ++ []) = false := startsWithDigit_blanks run rfl
  rwa [List.append_nil] at ends

theorem chars_of (text : String) : (View.of text).chars = text.toList :=
  View.chars_ofChars text.toList

/-- Blanks on either side of a document do not matter to a strict reading. -/
theorem Derives.read_padded {before word after : List Char} (derived : Derives word value)
    (blanksBefore : BlankRun before) (blanksAfter : BlankRun after) :
    Json.read true (String.ofList (before ++ word ++ after)) = .ok value := by
  obtain ⟨char, more, rfl, visible⟩ := derived.opens
  have shown : (View.of (String.ofList (before ++ (char :: more) ++ after))).chars =
      (before ++ char :: more) ++ after := by
    rw [chars_of, String.toList_ofList]
  obtain ⟨front, left⟩ := View.splits_drop _ shown
  obtain ⟨start, blank, split⟩ := front.between
  have stops := (View.span_of_splits blank blanksBefore
    (startsWithBlank_of_head split.head?_chars visible)).2
  have parsed := value_of_splits derived split fun _ _ => by
    rw [left]
    exact startsWithDigit_of_blankRun blanksAfter
  have nothing : (((View.of (String.ofList (before ++ (char :: more) ++ after))).drop
      (before ++ char :: more).length).span isBlank).2.isEmpty = true := by
    rw [View.isEmpty_iff, View.chars_span_snd, left]
    exact List.dropWhile_eq_nil_iff.mpr blanksAfter
  rw [read_eq]
  simp only [↓reduceIte, stops, parsed, nothing, Bool.not_true, Bool.and_false, Bool.false_eq_true]

theorem value_of_moved {distance : Int} {first second : View} (moved : first.Moved distance second) :
    Grammar.value first = .noMatch ∧ Grammar.value second = .noMatch ∨
      ∃ found rest remainder, Grammar.value first = .matched found rest ∧
        Grammar.value second = .matched found remainder ∧ rest.Moved distance remainder := by
  have alike : Reply.Alike (.moved distance fun _ => False) Eq (Grammar.value first)
      (Grammar.value second) := value_alike first second moved
  have settled := (value_stays View.lasting_true second trivial).settled
  generalize Grammar.value first = reply at alike
  generalize Grammar.value second = other at alike settled
  cases alike with
  | matched same left =>
    subst same
    exact .inr ⟨_, _, _, rfl, rfl, left⟩
  | noMatch => exact .inl ⟨rfl, rfl⟩
  | fault | exhausted => rcases settled with ⟨_, _, impossible⟩ | impossible <;> cases impossible
  | lostFault lost | lostRun lost => exact lost.elim

theorem moved_trimmed (text : String) :
    ((View.of text).span isBlank).2.Moved (text.toList.takeWhile isBlank).length
      (View.of (String.ofList (text.toList.drop (text.toList.takeWhile isBlank).length))) := by
  have begins := (View.of text).offset_span_snd isBlank
  have shown := ((View.of text).splits_span isBlank).chars
  rw [View.chars_span_fst, chars_of] at shown
  rw [chars_of] at begins
  constructor
  · have left := congrArg (List.drop (text.toList.takeWhile isBlank).length) shown
    rw [List.drop_left] at left
    rw [chars_of, String.toList_ofList, left]
  · rw [begins]
    simp [View.offset, View.of, View.ofChars]

theorem cut_before {text : String} {cut more : List Char} {char : Char}
    (shown : text.toList = cut ++ char :: more) :
    cut.length < text.length ∧ text.toList[cut.length]? = some char ∧
      text.toList.take cut.length = cut := by
  rw [← String.length_toList, shown]
  simp

/-- What a strict reading reports of a value with something after it, and why the text can be cut
there: the value does not depend on what is cut off. -/
structure Reported (text : String) (found : Json) (char : Char) (position : Nat) : Prop where
  reported : read true text = .error (.trailing position)
  margin : (text.toList.takeWhile isBlank).length < position
  inside : position < text.length
  present : text.toList[position]? = some char
  repaired : read true (String.ofList (text.toList.take position)) = .ok found

theorem blankRun_takeWhile (chars : List Char) : BlankRun (chars.takeWhile isBlank) :=
  List.all_eq_true.mp List.all_takeWhile

theorem reported_of_matched {text : String} {more : List Char} {char : Char} {last : View}
    (matched : Grammar.value ((View.of text).span isBlank).2 = .matched value last)
    (others : (last.span isBlank).2.chars = char :: more) :
    Reported text value char (last.offset + (last.chars.takeWhile isBlank).length) := by
  obtain ⟨word, split, derived⟩ := value_sound matched
  have lead := (View.of text).splits_span isBlank
  have gap := last.splits_span isBlank
  rw [View.chars_span_fst, chars_of] at lead
  rw [View.chars_span_fst] at gap
  have whole := (lead.trans split).trans gap
  have shown := whole.chars
  rw [chars_of, others] at shown
  obtain ⟨inside, present, cut⟩ := cut_before shown
  have position : last.offset + (last.chars.takeWhile isBlank).length =
      (text.toList.takeWhile isBlank ++ word ++ last.chars.takeWhile isBlank).length := by
    have place := (lead.trans split).start
    simp only [View.offset, View.of, View.ofChars, List.length_append] at place ⊢
    omega
  have nonempty : 0 < word.length := by
    obtain ⟨first, rest, rfl, _⟩ := derived.opens
    exact Nat.succ_pos _
  rw [position]
  constructor
  · have strictly := read_eq true text
    simp only [↓reduceIte, matched] at strictly
    have something : (last.span isBlank).2.isEmpty = false := by
      simpa [others] using View.isEmpty_iff (last.span isBlank).2
    have place : (last.span isBlank).2.offset = _ := whole.start
    simp only [View.of, View.ofChars, Nat.zero_add] at place
    simpa [something, place] using strictly
  · simp only [List.length_append]
    omega
  · exact inside
  · exact present
  · rw [cut]
    exact derived.read_padded (blankRun_takeWhile _) (blankRun_takeWhile _)

/-- What a strict reading reports is a character that is not blank, with a document before it. -/
theorem exists_reported {text : String} {position : Nat}
    (failed : read true text = .error (.trailing position)) :
    ∃ found char, isBlank char = false ∧ Reported text found char position := by
  have strictly := failed
  rw [read_eq] at strictly
  simp only [↓reduceIte, Bool.true_and] at strictly
  split at strictly
  · rename_i found last matched
    have left := last.chars_span_snd isBlank
    cases others : last.chars.dropWhile isBlank with
    | nil =>
      have nothing : (last.span isBlank).2.isEmpty = true := by
        rw [View.isEmpty_iff, left, others]
      simp [nothing] at strictly
    | cons char more =>
      have visible : isBlank char = false := by
        have head := List.head?_dropWhile_not isBlank last.chars
        simpa [others] using head
      have report := reported_of_matched matched (left.trans others)
      have place := failed.symm.trans report.reported
      simp only [Except.error.injEq, ReadError.trailing.injEq] at place
      rw [← place] at report
      exact ⟨found, char, visible, report⟩
  · cases strictly

/-- A strict reading of a text is decided by what a lenient one makes of the text without the blanks
in front. Either there is no value; or nothing but blanks follows it; or the place of the first other
character after it is reported, and the text before that place is a document for the same value. -/
theorem read_strict_outcomes (text : String) :
    let margin := (text.toList.takeWhile isBlank).length
    let trimmed := String.ofList (text.toList.drop margin)
    (Grammar.value (View.of trimmed) = .noMatch ∧ read true text = .error .noMatch ∧
      read false trimmed = .error .noMatch) ∨
    ∃ found rest, Grammar.value (View.of trimmed) = .matched found rest ∧
      read false trimmed = .ok found ∧
      (BlankRun rest.chars ∧ read true text = .ok found ∨
        ∃ gap char more, rest.chars = gap ++ char :: more ∧ BlankRun gap ∧ isBlank char = false ∧
          Reported text found char (margin + rest.offset + gap.length)) := by
  intro margin trimmed
  have strictly := read_eq true text
  have leniently := read_eq false trimmed
  simp only [↓reduceIte] at strictly
  simp only [Bool.false_eq_true, ↓reduceIte] at leniently
  have further : ((View.of text).span isBlank).2.Moved margin (View.of trimmed) := moved_trimmed text
  rcases value_of_moved further with ⟨noMatch, noMatchToo⟩ |
    ⟨found, last, rest, matched, parsed, moved⟩
  · rw [noMatch] at strictly
    rw [noMatchToo] at leniently
    exact .inl ⟨noMatchToo, strictly, leniently⟩
  rw [matched] at strictly
  rw [parsed] at leniently
  refine .inr ⟨found, rest, parsed, leniently, ?_⟩
  have left := last.chars_span_snd isBlank
  rw [moved.chars] at left
  cases others : rest.chars.dropWhile isBlank with
  | nil =>
    have nothing : (last.span isBlank).2.isEmpty = true := by
      rw [View.isEmpty_iff, left, others]
    refine .inl ⟨List.dropWhile_eq_nil_iff.mp others, ?_⟩
    simpa [nothing] using strictly
  | cons char more =>
    have visible : isBlank char = false := by
      have head := List.head?_dropWhile_not isBlank rest.chars
      simpa [others] using head
    have position : margin + rest.offset = last.offset := by
      have distance := moved.offset
      omega
    refine .inr ⟨rest.chars.takeWhile isBlank, char, more, ?_, blankRun_takeWhile _, visible, ?_⟩
    · rw [← others, List.takeWhile_append_dropWhile]
    · rw [position, ← moved.chars]
      exact reported_of_matched matched (left.trans others)

example : read true "\t-07 8" = .error (.trailing 5) ∧ read true "\t-07 " = .ok (.num (-7)) :=
  ⟨by cbv, by cbv⟩

end Descent.Json
