import Descent.Proofs.Json.Number
import Descent.Proofs.Parser.Containment

/-!
The parsers of the JSON grammar stay within their view. They end in a match or in none, whatever
text they are given, as far as the parser of the values inside does.
-/

namespace Descent.Json.Grammar

open Descent.Parser

variable {allowed : Allowance} {ready inside : View → Prop} {α : Type} {held : α → List View}

section Plain

variable (lasting : View.Lasting ready)
include lasting

theorem literal_stays (text : String) (value : Json) :
    ((literal text).always value).Stays allowed ready ready holdsNone :=
  (Stays.literal fun split => lasting split.reaches).map fun _ _ => .none

theorem null_stays : null.Stays allowed ready ready holdsNone :=
  literal_stays lasting _ _

theorem bool_stays : bool.Stays allowed ready ready holdsNone :=
  (literal_stays lasting _ _).alt (literal_stays lasting _ _)

theorem digits_stays : digits.Stays allowed ready ready holdsNone :=
  (((Stays.span lasting _).guard fun _ _ => .none).map fun _ _ => .none).guard fun _ _ => .none

theorem integer_stays : integer.Stays allowed ready ready holdsNone := by
  refine (Stays.maybe lasting '-').lift2 (digits_stays lasting) fun minus found _ given => ?_
  obtain ⟨view, rest, parsed⟩ := given
  -- The sign is put before nothing but a run of digits, so there always is a number to read.
  obtain ⟨word, _, run, _, rfl⟩ := digits_eq_matched parsed
  rw [applySign_withoutLeadingZeros minus run]
  exact .none

theorem number_stays : number.Stays allowed ready ready holdsNone :=
  ((integer_stays lasting).guard fun _ _ => .none).map fun _ _ => .none

theorem stringLiteral_stays : stringLiteral.Stays allowed ready ready fun found => [found] :=
  ((Stays.char fun split => lasting split.reaches).andThen (Stays.span lasting _)).skip
    (Stays.char fun split => lasting split.reaches)

theorem string_stays : string.Stays allowed ready ready holdsNone :=
  (stringLiteral_stays lasting).map fun _ _ => .none

theorem spacedMark_stays (mark : Char) : (spacedMark mark).Stays allowed ready ready holdsNone :=
  ((Stays.span lasting _).andThen (Stays.char fun split => lasting split.reaches)).skip
    (Stays.span lasting _)

theorem pairOf_stays {value : Parser Json} (stays : value.Stays allowed ready ready holdsNone) :
    (pairOf value).Stays allowed ready ready holdsNone :=
  (stringLiteral_stays lasting).lift2 ((spacedMark_stays lasting ':').andThen stays)
    fun _ _ _ _ => .none

end Plain

/-- An entry is met only behind the opening mark. -/
theorem enclosed_stays {left right : Char} {entry : Parser α} (lasting : View.Lasting inside)
    (opens : ∀ {view rest}, view.Splits [left] rest → ready view → inside rest)
    (entries : entry.Stays allowed inside inside holdsNone) :
    (enclosed left right entry).Stays allowed ready inside holdsNone := by
  have blanks : whitespace.Stays allowed inside inside fun found => [found] := .span lasting _
  have list := Stays.sepBy (spacedMark_stays lasting ',') entries
  rw [flatMap_holdsNone] at list
  have closing : (char right).Stays allowed inside inside holdsNone :=
    .char fun split => lasting split.reaches
  exact (((Stays.char opens).andThen blanks).andThen list).skip (blanks.andThen closing)

end Descent.Json.Grammar
