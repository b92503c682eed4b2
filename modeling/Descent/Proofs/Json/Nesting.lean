import Descent.Proofs.Json.Containment
import Descent.Proofs.Json.Likeness
import Descent.Proofs.Json.Recognition
import Descent.Proofs.Pattern.Contents

/-!
Reading a value ends on every text, in a match or in none. A value is entered inside another one
only behind an opening bracket or brace, so no more can be open at once than there are of these in
the text, and one.
-/

namespace Descent

def Allowance.none : Allowance :=
  ⟨fun _ => False, fun _ => False⟩

theorem Reply.Stays.settled {α : Type} {start : View} {after : View → Prop} {held : α → List View}
    {reply : Reply α} (stays : reply.Stays .none start after held) :
    (∃ value rest, reply = .matched value rest) ∨ reply = .noMatch := by
  cases stays with
  | matched => exact .inl ⟨_, _, rfl⟩
  | noMatch => exact .inr rfl
  | fault impossible => exact impossible.elim
  | exhausted impossible => exact impossible.elim

theorem Reply.Stays.ended {α : Type} {start : View} {after : View → Prop} {held : α → List View}
    {reply : Reply α} (stays : reply.Stays .none start after held) : reply ≠ .exhausted := by
  rcases stays.settled with ⟨value, rest, matched⟩ | noMatch
  · simp [matched]
  · simp [noMatch]

namespace Json.Grammar

variable {allowed : Allowance} {ready inside : View → Prop} {view : View}

def opensEntries (char : Char) : Bool :=
  char == '[' || char == '\x7b'

def openings (view : View) : Nat :=
  view.chars.countP opensEntries

theorem openings_le_length (view : View) : openings view ≤ view.length := by
  rw [← View.length_chars]
  exact List.countP_le_length

theorem openings_of_splits {rest : View} {word : List Char} (split : view.Splits word rest) :
    openings view = word.countP opensEntries + openings rest := by
  rw [openings, split.chars, List.countP_append, openings]

def OpeningsBelow (depth : Nat) (view : View) : Prop :=
  openings view < depth

theorem openingsBelow_lasting (depth : Nat) : View.Lasting (OpeningsBelow depth) := by
  rintro view rest ⟨word, split⟩ start
  have count := openings_of_splits split
  simp only [OpeningsBelow] at start ⊢
  omega

theorem openingsBelow_of_opening {depth : Nat} {rest : View} {char : Char}
    (opens : opensEntries char = true) (split : view.Splits [char] rest)
    (start : OpeningsBelow (depth + 1) view) : OpeningsBelow depth rest := by
  have count := openings_of_splits split
  simp only [List.countP_singleton, opens, if_true] at count
  simp only [OpeningsBelow] at start ⊢
  omega

theorem arrayOf_stays {inner : Parser Json} (lasting : View.Lasting inside)
    (opens : ∀ {view rest}, view.Splits ['['] rest → ready view → inside rest)
    (values : inner.Stays allowed inside inside holdsNone) :
    (arrayOf inner).Stays allowed ready inside holdsNone :=
  (enclosed_stays lasting opens values).map fun _ _ => .none

theorem objectOf_stays {inner : Parser Json} (lasting : View.Lasting inside)
    (opens : ∀ {view rest}, view.Splits ['\x7b'] rest → ready view → inside rest)
    (values : inner.Stays allowed inside inside holdsNone) :
    (objectOf inner).Stays allowed ready inside holdsNone :=
  (enclosed_stays lasting opens (pairOf_stays lasting values)).map fun _ _ => .none

theorem valueWithin_stays (depth : Nat) : (valueWithin depth).Stays allowed (OpeningsBelow depth)
    (OpeningsBelow depth) holdsNone := by
  induction depth with
  | zero =>
    intro view start
    exact absurd start (Nat.not_lt_zero _)
  | succ depth ih =>
    -- Behind an opening bracket or brace one less is left of the bound, and one opening less of the
    -- view, so the hypothesis is at hand for the entries and nowhere else.
    have lasting := openingsBelow_lasting (depth + 1)
    have less := openingsBelow_lasting depth
    have more : ∀ view, OpeningsBelow depth view → OpeningsBelow (depth + 1) view :=
      fun _ => Nat.lt_succ_of_lt
    have arrays := (arrayOf_stays less (openingsBelow_of_opening rfl) ih).imp (fun _ => id) more
    have objects := (objectOf_stays less (openingsBelow_of_opening rfl) ih).imp (fun _ => id) more
    exact (((((null_stays lasting).alt (bool_stays lasting)).alt (number_stays lasting)).alt
      (string_stays lasting)).alt arrays).alt objects

theorem value_stays (lasting : View.Lasting ready) :
    value.Stays allowed ready ready holdsNone := by
  intro view start
  have enough : OpeningsBelow (view.length + 1) view := Nat.lt_succ_of_le (openings_le_length view)
  have stays : (value view).Stays allowed view _ holdsNone := valueWithin_stays _ view enough
  exact stays.leaving fun rest reaches _ => lasting reaches start

structure Reader (reads : Parser Json → Parser Json) : Prop where
  alike : ∀ {like : Likeness} {inner other : Parser Json}, inner.Alike like Eq other →
    (reads inner).Alike like Eq (reads other)
  stays : ∀ {ready : View → Prop} {inner : Parser Json}, View.Lasting ready →
    inner.Stays .none ready ready holdsNone → (reads inner).Stays .none ready ready holdsNone

theorem reader_value : Reader fun inner => inner :=
  ⟨fun alike => alike, fun _ stays => stays⟩

theorem reader_array : Reader arrayOf :=
  ⟨arrayOf_alike, fun lasting => arrayOf_stays lasting fun split => lasting split.reaches⟩

theorem reader_object : Reader objectOf :=
  ⟨objectOf_alike, fun lasting => objectOf_stays lasting fun split => lasting split.reaches⟩

theorem shorter_lasting (count : Nat) : View.Lasting fun view => view.length < count :=
  fun _ _ reaches => Nat.lt_of_le_of_lt reaches.length_le

theorem Reader.valueWithin_eq {reads : Parser Json → Parser Json} (reader : Reader reads)
    {depth : Nat} (enough : OpeningsBelow depth view) :
    reads (valueWithin depth) view = reads value view := by
  -- Neither bound need be the larger one, so both readings are compared with one that exceeds them
  -- on every view they come to.
  obtain ⟨large, deep, short⟩ : ∃ large, depth ≤ large ∧ view.length < large :=
    ⟨max depth (view.length + 1), Nat.le_max_left _ _, Nat.le_max_right _ _⟩
  let like := Likeness.patient (fun view => view.length < large) (shorter_lasting large)
  have bounded : reads (valueWithin depth) view = reads (valueWithin large) view := by
    have alike : (valueWithin depth).Alike like Eq (valueWithin large) :=
      valueWithin_alike (.inr ⟨deep, rfl⟩)
    have stays := reader.stays (openingsBelow_lasting depth) (valueWithin_stays depth) view enough
    exact Reply.eq_of_alike id (reader.alike alike view view ⟨rfl, short⟩) stays.ended
  have unbounded : reads value view = reads (valueWithin large) view := by
    have alike : value.Alike like Eq (valueWithin large) := by
      rintro view _ ⟨rfl, short⟩
      exact valueWithin_alike (.inr ⟨short, rfl⟩) view view ⟨rfl, short⟩
    have stays := reader.stays View.lasting_true (value_stays View.lasting_true) view trivial
    exact Reply.eq_of_alike id (reader.alike alike view view ⟨rfl, short⟩) stays.ended
  rw [bounded, unbounded]

theorem valueWithin_eq_value {depth : Nat} (ended : valueWithin depth view ≠ .exhausted) :
    valueWithin depth view = value view := by
  have alike {less more : Nat} (enough : less ≤ more) :
      (valueWithin less).Alike (.patient _ View.lasting_true) Eq (valueWithin more) :=
    valueWithin_alike (.inr ⟨enough, rfl⟩)
  rcases Nat.le_total depth (view.length + 1) with enough | enough
  · exact Reply.eq_of_alike id (alike enough view view ⟨rfl, trivial⟩) ended
  · have unbounded : (value view).Stays .none view (fun _ => True) holdsNone :=
      value_stays View.lasting_true view trivial
    exact (Reply.eq_of_alike id (alike enough view view ⟨rfl, trivial⟩) unbounded.ended).symm

theorem value_consumes {found : Json} {rest : View} (parsed : value view = .matched found rest) :
    rest.length < view.length := by
  obtain ⟨word, split, derived⟩ := value_sound parsed
  obtain ⟨char, more, rfl, _⟩ := derived.opens
  have lengths := split.length
  simp only [List.length_cons] at lengths
  omega

theorem rule_stays (lasting : View.Lasting ready) (rule : JsonRule) :
    rule.parser.Stays allowed ready ready Value.views := by
  have json {parser : Parser Json} (stays : parser.Stays allowed ready ready holdsNone) :
      (parser.map fun value => .ok (.json value)).Stays allowed ready ready Value.views :=
    stays.map fun _ _ => .of_subset (List.nil_subset _)
  cases rule with
  | null => exact json (null_stays lasting)
  | bool => exact json (bool_stays lasting)
  | number => exact json (number_stays lasting)
  | stringLiteral => exact (stringLiteral_stays lasting).map fun _ _ => .of_subset fun _ => id
  | string => exact json (string_stays lasting)
  | array =>
    exact json (arrayOf_stays lasting (fun split => lasting split.reaches) (value_stays lasting))
  | object =>
    exact json (objectOf_stays lasting (fun split => lasting split.reaches) (value_stays lasting))
  | value => exact json (value_stays lasting)
  | whitespace => exact (Parser.Stays.span lasting _).map fun _ _ => .of_subset fun _ => id

/-- Every parser of the grammar ends on every view, without a fault. With one open value for each
opening bracket or brace, and one more, it ends as it does without a bound. -/
theorem total_within_openings (view : View) :
    (∀ rule : JsonRule, (∃ found rest, rule.parser view = .matched found rest) ∨
      rule.parser view = .noMatch) ∧
    (∀ found rest, value view = .matched found rest → rest.length < view.length) ∧
    ∀ depth, view.chars.countP (fun char => char == '[' || char == '\x7b') + 1 ≤ depth →
      valueWithin depth view = value view ∧ arrayOf (valueWithin depth) view = array view ∧
        objectOf (valueWithin depth) view = object view := by
  refine ⟨fun rule => ?_, fun found rest parsed => value_consumes parsed, fun depth enough => ?_⟩
  · exact (rule_stays View.lasting_true rule view trivial).settled
  · exact ⟨reader_value.valueWithin_eq enough, reader_array.valueWithin_eq enough,
      reader_object.valueWithin_eq enough⟩

/-- The bound cannot be lowered. -/
theorem nested_within_openings :
    valueWithin 2 (View.of "[[1]]") = .exhausted ∧
    valueWithin 3 (View.of "[[1]]") = value (View.of "[[1]]") ∧
    ∃ found rest, value (View.of "[[1]]") = .matched found rest ∧
      rest.length < (View.of "[[1]]").length := by
  obtain ⟨_, consumes, bounded⟩ := total_within_openings (View.of "[[1]]")
  obtain ⟨found, rest, parsed⟩ : ∃ found rest, value (View.of "[[1]]") = .matched found rest :=
    ⟨_, _, by cbv⟩
  exact ⟨by cbv, (bounded 3 (by decide)).1, found, rest, parsed, consumes _ _ parsed⟩

end Json.Grammar

end Descent
