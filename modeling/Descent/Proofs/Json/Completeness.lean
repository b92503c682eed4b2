import Descent.Proofs.Json.Production

/-!
Every word that derives a value is read as a whole. The first character of a word decides between
the productions, and what may follow an entry keeps greedy runs from taking too much.
-/

namespace Descent.Json.Grammar

open Descent.Parser

variable {α : Type}

theorem startsWithDigit_blanks {blanks more : List Char} (run : BlankRun blanks)
    (ends : startsWithDigit more = false) : startsWithDigit (blanks ++ more) = false := by
  cases blanks with
  | nil => exact ends
  | cons blank others => exact isDigit_of_isBlank (run blank List.mem_cons_self)

theorem whitespace_of_splits {view rest : View} {blanks : List Char}
    (split : view.Splits blanks rest) (run : BlankRun blanks)
    (ends : startsWithBlank rest.chars = false) :
    whitespace view = .matched (view.span isBlank).1 rest := by
  have stops := (View.span_of_splits split run ends).2
  rw [whitespace, span_apply, stops]

theorem whitespace_of_nonblank {view : View} (ends : startsWithBlank view.chars = false) :
    whitespace view = .matched (view.span isBlank).1 view :=
  whitespace_of_splits view.splits_nil (by simp [BlankRun]) ends

theorem startsWithBlank_of_head {view : View} {char : Char} (head : view.chars.head? = some char)
    (visible : isBlank char = false) : startsWithBlank view.chars = false := by
  rw [startsWithBlank, head]
  exact visible

theorem startsWithDigit_of_head {view : View} {char : Char} (head : view.chars.head? = some char)
    (other : char.isDigit = false) : startsWithDigit view.chars = false := by
  rw [startsWithDigit, head]
  exact other

theorem spacedMark_of_splits {mark : Char} {view rest : View} {before after : List Char}
    (split : view.Splits (before ++ mark :: after) rest) (blanksBefore : BlankRun before)
    (blanksAfter : BlankRun after) (visible : isBlank mark = false)
    (ends : startsWithBlank rest.chars = false) :
    spacedMark mark view = .matched mark rest := by
  obtain ⟨middle, first, others⟩ := split.between
  obtain ⟨point, marked, last⟩ := others.cons
  have head := startsWithBlank_of_head marked.head?_chars visible
  rw [spacedMark, skip_apply, andThen_apply, whitespace_of_splits first blanksBefore head,
    Reply.bind_matched, char_of_splits marked, Reply.bind_matched,
    whitespace_of_splits last blanksAfter ends, Reply.bind_matched]

theorem spacedMark_refuses {mark other : Char} {view rest : View} {blanks : List Char}
    (split : view.Splits blanks rest) (run : BlankRun blanks)
    (head : rest.chars.head? = some other) (visible : isBlank other = false)
    (different : other ≠ mark) : spacedMark mark view = .noMatch := by
  have foreign : rest.chars.head? ≠ some mark := by
    rw [head]
    exact fun same => different (Option.some.inj same)
  rw [spacedMark, skip_apply, andThen_apply,
    whitespace_of_splits split run (startsWithBlank_of_head head visible), Reply.bind_matched,
    char_of_head?_ne foreign, Reply.bind_noMatch]

theorem stringLiteral_of_splits {view rest : View} {word : List Char} {content : String}
    (split : view.Splits word rest) (quoted : StringWord word content) :
    ∃ found, stringLiteral view = .matched found rest ∧ found.text = content := by
  cases quoted with
  | quoted plain =>
    obtain ⟨point, others, closing⟩ := split.between
    obtain ⟨middle, opening, inside⟩ := others.cons
    have passes : ∀ char ∈ _, (char != '"') = true := fun char member =>
      bne_iff_ne.mpr fun same => plain (same ▸ member)
    have ends : point.chars.head?.any (· != '"') = false := by
      rw [closing.head?_chars]
      rfl
    obtain ⟨whole, last⟩ := View.span_of_splits inside passes ends
    refine ⟨_, ?_, congrArg String.ofList whole⟩
    rw [stringLiteral, skip_apply, andThen_apply, char_of_splits opening, Reply.bind_matched,
      span_apply, Reply.bind_matched, last, char_of_splits closing, Reply.bind_matched]

section Entries

structure Closer (right : Char) : Prop where
  visible : isBlank right = false
  noDigit : right.isDigit = false
  noComma : right ≠ ','

structure EntryReader (right : Char) (entry : Parser α) (language : List Char → α → Prop) :
    Prop where
  opens : ∀ {word value}, language word value →
    ∃ char more, word = char :: more ∧ isBlank char = false
  reads : ∀ {view word value rest}, language word value → view.Splits word rest →
    startsWithDigit rest.chars = false → entry view = .matched value rest
  refuses : ∀ {view}, view.chars.head? = some right → entry view = .noMatch

variable {left right : Char} {entry : Parser α} {language : List Char → α → Prop}

theorem EntryReader.startsWithBlank {view rest : View} {word : List Char} {value : α}
    (reader : EntryReader right entry language) (written : language word value)
    (split : view.Splits word rest) : Json.startsWithBlank view.chars = false := by
  obtain ⟨char, more, rfl, visible⟩ := reader.opens written
  exact startsWithBlank_of_head split.head?_chars visible

theorem EntryList.startsWithBlank {view rest : View} {body : List Char} {values : List α}
    (reader : EntryReader right entry language) (list : EntryList language body values)
    (split : view.Splits body rest) : Json.startsWithBlank view.chars = false := by
  cases list with
  | one written => exact reader.startsWithBlank written split
  | more written =>
    rw [List.append_assoc, List.append_assoc] at split
    obtain ⟨point, first, _⟩ := split.between
    exact reader.startsWithBlank written first

/-- After the first entry of a list the repetition reads the others and gives back what it tried
for one more. -/
theorem repeats_of_entryList {view middle closing : View} {body after : List Char}
    {values : List α} (closer : Closer right) (reader : EntryReader right entry language)
    (list : EntryList language body values) (split : view.Splits body middle)
    (blanks : middle.Splits after closing) (run : BlankRun after)
    (head : closing.chars.head? = some right) :
    ∃ value others word point, values = value :: others ∧ view.Splits word point ∧
      entry view = .matched value point ∧
      Repeats ((spacedMark ',').andThen entry) point others middle := by
  induction list generalizing view with
  | one written =>
    have ends : startsWithDigit middle.chars = false := by
      rw [blanks.chars]
      exact startsWithDigit_blanks run (startsWithDigit_of_head head closer.noDigit)
    refine ⟨_, [], _, _, rfl, split, reader.reads written split ends, .stops ?_⟩
    rw [andThen_apply, spacedMark_refuses blanks run head closer.visible closer.noComma,
      Reply.bind_noMatch]
  | more written blanksBefore blanksAfter list ih =>
    rw [List.append_assoc _ _ (',' :: _)] at split
    obtain ⟨next, front, rest⟩ := split.between
    obtain ⟨point, first, comma⟩ := front.between
    obtain ⟨value, others, part, last, rfl, taken, read, repeats⟩ := ih rest
    have ends : startsWithDigit point.chars = false := by
      obtain ⟨mark, blank, marked⟩ := comma.between
      rw [blank.chars]
      exact startsWithDigit_blanks blanksBefore (startsWithDigit_of_head marked.head?_chars rfl)
    have opens := EntryList.startsWithBlank reader list rest
    have shorter : last.length < point.length := by
      have one := comma.length
      have two := taken.length
      simp only [List.length_append, List.length_cons] at one
      omega
    refine ⟨_, _, _, point, rfl, first, reader.reads written first ends, .goesOn ?_ shorter repeats⟩
    rw [andThen_apply, spacedMark_of_splits comma blanksBefore blanksAfter rfl opens,
      Reply.bind_matched, read]

theorem sepBy_of_entryList {view middle closing : View} {body after : List Char}
    {values : List α} (closer : Closer right) (reader : EntryReader right entry language)
    (list : EntryList language body values) (split : view.Splits body middle)
    (blanks : middle.Splits after closing) (run : BlankRun after)
    (head : closing.chars.head? = some right) :
    sepBy (spacedMark ',') entry view = .matched values middle := by
  obtain ⟨value, others, word, point, rfl, _, read, repeats⟩ :=
    repeats_of_entryList closer reader list split blanks run head
  apply alt_of_matched
  rw [lift2_apply, read, Reply.bind_matched, many_of_repeats repeats]
  rfl

theorem sepBy_of_refuses {view : View} (refuses : entry view = .noMatch) :
    sepBy (spacedMark ',') entry view = .matched [] view := by
  rw [sepBy, alt_of_noMatch_left, just_apply]
  rw [lift2_apply, refuses, Reply.bind_noMatch]

theorem enclosed_of_splits {view rest : View} {word : List Char} {values : List α}
    (closer : Closer right) (reader : EntryReader right entry language)
    (written : Enclosed left right language word values) (split : view.Splits word rest) :
    enclosed left right entry view = .matched values rest := by
  rw [enclosed, skip_apply, andThen_apply, andThen_apply]
  cases written with
  | empty blanks =>
    obtain ⟨closing, front, closed⟩ := split.between
    obtain ⟨middle, opened, inside⟩ := front.cons
    have ends := startsWithBlank_of_head closed.head?_chars closer.visible
    rw [char_of_splits opened, Reply.bind_matched, whitespace_of_splits inside blanks ends,
      Reply.bind_matched, sepBy_of_refuses (reader.refuses closed.head?_chars),
      Reply.bind_matched, andThen_apply, whitespace_of_nonblank ends, Reply.bind_matched,
      char_of_splits closed, Reply.bind_matched]
  | entries blanksBefore list blanksAfter =>
    obtain ⟨closing, front, closed⟩ := split.between
    obtain ⟨middle, front, after⟩ := front.between
    obtain ⟨point, front, body⟩ := front.between
    obtain ⟨start, opened, before⟩ := front.cons
    have ends := startsWithBlank_of_head closed.head?_chars closer.visible
    have opens := EntryList.startsWithBlank reader list body
    rw [char_of_splits opened, Reply.bind_matched, whitespace_of_splits before blanksBefore opens,
      Reply.bind_matched,
      sepBy_of_entryList closer reader list body after blanksAfter closed.head?_chars,
      Reply.bind_matched, andThen_apply, whitespace_of_splits after blanksAfter ends,
      Reply.bind_matched, char_of_splits closed, Reply.bind_matched]

end Entries

theorem head?_of_literal {text : String} {view rest : View} {first : Char}
    (begins : text.toList.head? = some first) (split : view.Splits text.toList rest) :
    view.chars.head? = some first := by
  rw [split.chars, List.head?_append, begins]
  rfl

theorem ahead?_of_numberWord {view rest : View} {word : List Char} {value : Int}
    (split : view.Splits word rest) (written : NumberWord word value) :
    Production.ahead? view = some .number := by
  obtain ⟨char, more, rfl, signOrDigit⟩ := written.opens
  rw [Production.ahead?_of_head split.head?_chars]
  rcases signOrDigit with rfl | digit
  · rfl
  · exact if_pos digit

theorem pairReader {right : Char} {value : Parser Json} {language : List Char → Json → Prop}
    (reader : EntryReader right value language) :
    EntryReader '\x7d' (pairOf value) (MemberWord language) where
  opens := by
    rintro _ _ ⟨⟨_⟩, _, _, _⟩
    exact ⟨'"', _, rfl, by decide⟩
  reads := by
    intro view word pair rest written split ends
    cases written with
    | pair named blanksBefore blanksAfter inside =>
      rw [List.append_assoc _ _ (':' :: _)] at split
      obtain ⟨point, front, last⟩ := split.between
      obtain ⟨middle, first, colon⟩ := front.between
      obtain ⟨found, read, rfl⟩ := stringLiteral_of_splits first named
      have opens := reader.startsWithBlank inside last
      rw [pairOf, ap_apply, map_apply, read, Reply.bind_matched, Reply.deliver_ok,
        Reply.bind_matched, andThen_apply, spacedMark_of_splits colon blanksBefore blanksAfter rfl
        opens, Reply.bind_matched, reader.reads inside last ends]
      rfl
  refuses := by
    intro view head
    have noQuote : view.chars.head? ≠ some '"' := by
      rw [head]
      decide
    rw [pairOf, ap_apply, map_apply, stringLiteral_of_head noQuote, Reply.bind_noMatch,
      Reply.bind_noMatch]

theorem valueWithin_of_splits {depth : Nat} {view rest : View} {word : List Char} {value : Json}
    (derived : Derives word value) (enough : word.length < depth) (split : view.Splits word rest)
    (ends : ∀ number, value = .num number → startsWithDigit rest.chars = false) :
    valueWithin depth view = .matched value rest := by
  induction depth generalizing view word value rest with
  | zero => omega
  | succ depth ih =>
    change valueOf (valueWithin depth) view = .matched value rest
    have reader (positive : 0 < depth) : EntryReader ']' (valueWithin depth)
        (fun part value => Derives part value ∧ part.length < depth) := by
      refine ⟨fun inside => inside.1.opens, fun inside split ends => ?_, fun head => ?_⟩
      · exact ih inside.1 inside.2 split fun _ _ => ends
      · obtain ⟨less, rfl⟩ := Nat.exists_eq_succ_of_ne_zero (Nat.ne_of_gt positive)
        exact valueOf_of_none_ahead (Production.ahead?_of_head head)
    cases derived with
    | null =>
      have head : view.chars.head? = some 'n' := head?_of_literal (by decide) split
      rw [valueOf_of_ahead (Production.ahead?_of_head head), Production.parserOf, null,
        always_apply, literal_of_splits split]
      rfl
    | yes =>
      have head : view.chars.head? = some 't' := head?_of_literal (by decide) split
      rw [valueOf_of_ahead (Production.ahead?_of_head head), Production.parserOf, bool,
        alt_of_matched]
      rw [always_apply, literal_of_splits split]
      rfl
    | no =>
      have head : view.chars.head? = some 'f' := head?_of_literal (by decide) split
      have noTrue : view.chars.head? ≠ some 't' := by
        rw [head]
        decide
      rw [valueOf_of_ahead (Production.ahead?_of_head head), Production.parserOf, bool,
        alt_of_noMatch_left (literal_of_head (by decide) noTrue), always_apply,
        literal_of_splits split]
      rfl
    | number written lower upper =>
      rw [valueOf_of_ahead (ahead?_of_numberWord split written)]
      exact number_of_splits split written lower upper (ends _ rfl)
    | string quoted =>
      have head : view.chars.head? = some '"' := by
        cases quoted
        exact split.head?_chars
      obtain ⟨found, read, rfl⟩ := stringLiteral_of_splits split quoted
      rw [valueOf_of_ahead (Production.ahead?_of_head head), Production.parserOf, string,
        map_apply, read]
      rfl
    | array enclosed =>
      have head : view.chars.head? = some '[' := by
        cases enclosed <;> exact split.head?_chars
      have bounded := enclosed.imp fun part value shorter inside =>
        And.intro inside (show part.length < depth by omega)
      have read := enclosed_of_splits ⟨by decide, rfl, by decide⟩
        (reader (by have := enclosed.two_le_length; omega)) bounded split
      rw [valueOf_of_ahead (Production.ahead?_of_head head), Production.parserOf, arrayOf,
        map_apply, read]
      rfl
    | object enclosed =>
      have head : view.chars.head? = some '\x7b' := by
        cases enclosed <;> exact split.head?_chars
      have bounded := enclosed.imp fun part member shorter pair =>
        pair.imp fun last value within inside =>
          And.intro inside (show last.length < depth by omega)
      have read := enclosed_of_splits ⟨by decide, rfl, by decide⟩
        (pairReader (reader (by have := enclosed.two_le_length; omega))) bounded split
      rw [valueOf_of_ahead (Production.ahead?_of_head head), Production.parserOf, objectOf,
        map_apply, read]
      rfl

end Descent.Json.Grammar
