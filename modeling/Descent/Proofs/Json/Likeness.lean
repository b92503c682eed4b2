import Descent.Json.Grammar
import Descent.Proofs.Parser.Likeness

/-!
The parsers of the JSON grammar run alike on views that go together, with equal values.
-/

namespace Descent.Json.Grammar

open Descent.Parser

variable {like : Likeness} {α : Type}

theorem null_alike : null.Alike like Eq null :=
  (Alike.literal _).always rfl

theorem bool_alike : bool.Alike like Eq bool :=
  ((Alike.literal _).always rfl).alt ((Alike.literal _).always rfl)

theorem digits_alike : digits.Alike like Eq digits := by
  refine (((Alike.span _).notEmpty).map fun found found' held => .ok ?_).guard fun _ _ same => ?_
  · rw [like.chars_of_held held]
  · rw [same]

theorem integer_alike : integer.Alike like Eq integer := by
  refine ((Alike.maybe '-').map fun minus minus' same => ?_).ap digits_alike
  subst same
  exact .ok fun digits digits' same => .of_eq (congrArg (applySign minus) same)

theorem number_alike : number.Alike like Eq number := by
  refine (integer_alike.guard fun value value' same => ?_).map fun value value' same => .ok ?_
  · rw [same]
  · rw [same]

theorem stringLiteral_alike : stringLiteral.Alike like like.held stringLiteral :=
  ((Alike.char '"').andThen (Alike.span _)).skip (Alike.char '"')

theorem text_eq_of_held {first second : View} (held : like.held first second) :
    first.text = second.text := by
  rw [View.text, View.text, like.chars_of_held held]

theorem string_alike : string.Alike like Eq string :=
  stringLiteral_alike.map fun _ _ held => .ok (congrArg str (text_eq_of_held held))

theorem spacedMark_alike (mark : Char) : (spacedMark mark).Alike like Eq (spacedMark mark) :=
  ((Alike.span _).andThen (Alike.char mark)).skip (Alike.span _)

theorem enclosed_alike (left right : Char) {entry other : Parser α}
    (entries : entry.Alike like Eq other) :
    (enclosed left right entry).Alike like Eq (enclosed left right other) := by
  have list := Alike.sepBy (spacedMark_alike ',') entries
  rw [List.forall₂_eq_eq_eq] at list
  exact (((Alike.char left).andThen (Alike.span _)).andThen list).skip
    ((Alike.span _).andThen (Alike.char right))

variable {value other : Parser Json}

theorem arrayOf_alike (values : value.Alike like Eq other) :
    (arrayOf value).Alike like Eq (arrayOf other) :=
  (enclosed_alike '[' ']' values).map fun _ _ same => .ok (congrArg arr same)

theorem pairOf_alike (values : value.Alike like Eq other) :
    (pairOf value).Alike like Eq (pairOf other) := by
  refine (stringLiteral_alike.map fun key key' held => .ok fun member member' same => .ok ?_).ap
    ((spacedMark_alike ':').andThen values)
  rw [text_eq_of_held held, same]

theorem objectOf_alike (values : value.Alike like Eq other) :
    (objectOf value).Alike like Eq (objectOf other) :=
  (enclosed_alike _ _ (pairOf_alike values)).map fun _ _ same => .ok (congrArg ofPairs same)

theorem valueOf_alike (values : value.Alike like Eq other) :
    (valueOf value).Alike like Eq (valueOf other) :=
  ((((null_alike.alt bool_alike).alt number_alike).alt string_alike).alt
    (arrayOf_alike values)).alt (objectOf_alike values)

theorem valueWithin_alike {depth more : Nat}
    (enough : depth = more ∨ depth ≤ more ∧ like.lost none) :
    (valueWithin depth).Alike like Eq (valueWithin more) := by
  induction depth generalizing more with
  | zero =>
    intro first second _
    rcases enough with rfl | ⟨_, lost⟩
    · exact .exhausted
    · exact .lostRun lost
  | succ depth ih =>
    cases more with
    | zero => omega
    | succ more =>
      refine valueOf_alike (ih ?_)
      rcases enough with same | ⟨less, lost⟩
      · exact .inl (by omega)
      · exact .inr ⟨by omega, lost⟩

theorem value_alike : Grammar.value.Alike like Eq Grammar.value := by
  intro first second ahead
  rw [Grammar.value, Grammar.value, like.length_of_ahead ahead]
  exact valueWithin_alike (.inl rfl) first second ahead

end Descent.Json.Grammar
