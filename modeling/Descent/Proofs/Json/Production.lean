import Descent.Proofs.Json.Number
import Descent.Proofs.Parser.Laws

/-!
The productions for a value and the characters that they begin with. No character begins two of
them, so the first one of a text decides which production can read it, in whatever order the
productions are tried.
-/

namespace Descent.Json.Grammar

open Descent.Parser

variable {α : Type}

section Foreign

theorem literal_of_head {text : String} {value : Json} {view : View} {first : Char}
    (begins : text.toList.head? = some first) (other : view.chars.head? ≠ some first) :
    (literal text).always value view = .noMatch := by
  rw [always_apply, literal_apply, if_neg, Reply.bind_noMatch]
  rintro ⟨more, shown⟩
  apply other
  rw [← shown, List.head?_append, begins]
  rfl

theorem enclosed_of_head {left right : Char} {entry : Parser α} {view : View}
    (other : view.chars.head? ≠ some left) :
    enclosed left right entry view = .noMatch := by
  rw [enclosed, skip_apply, andThen_apply, andThen_apply, char_of_head?_ne other,
    Reply.bind_noMatch, Reply.bind_noMatch, Reply.bind_noMatch]

theorem null_of_head {view : View} (other : view.chars.head? ≠ some 'n') : null view = .noMatch :=
  literal_of_head (by decide) other

theorem bool_of_head {view : View} (notTrue : view.chars.head? ≠ some 't')
    (notFalse : view.chars.head? ≠ some 'f') : bool view = .noMatch := by
  rw [bool, alt_of_noMatch_left (literal_of_head (by decide) notTrue)]
  exact literal_of_head (by decide) notFalse

theorem stringLiteral_of_head {view : View} (other : view.chars.head? ≠ some '"') :
    stringLiteral view = .noMatch := by
  rw [stringLiteral, skip_apply, andThen_apply, char_of_head?_ne other, Reply.bind_noMatch,
    Reply.bind_noMatch]

theorem string_of_head {view : View} (other : view.chars.head? ≠ some '"') :
    string view = .noMatch := by
  rw [string, map_apply, stringLiteral_of_head other, Reply.bind_noMatch]

theorem arrayOf_of_head {inner : Parser Json} {view : View}
    (other : view.chars.head? ≠ some '[') : arrayOf inner view = .noMatch := by
  rw [arrayOf, map_apply, enclosed_of_head other, Reply.bind_noMatch]

theorem objectOf_of_head {inner : Parser Json} {view : View}
    (other : view.chars.head? ≠ some '\x7b') : objectOf inner view = .noMatch := by
  rw [objectOf, map_apply, enclosed_of_head other, Reply.bind_noMatch]

end Foreign

inductive Production where
  | null | bool | number | string | array | object

namespace Production

def ofFirst? (first : Char) : Option Production :=
  if first.isDigit then some number
  else match first with
    | '-' => some number
    | 'n' => some null
    | 't' | 'f' => some bool
    | '"' => some string
    | '[' => some array
    | '\x7b' => some object
    | _ => none

def ahead? (view : View) : Option Production :=
  view.chars.head?.bind ofFirst?

def parserOf (inner : Parser Json) : Production → Parser Json
  | null => Grammar.null
  | bool => Grammar.bool
  | number => Grammar.number
  | string => Grammar.string
  | array => arrayOf inner
  | object => objectOf inner

def choice (inner : Parser Json) (order : List Production) : Parser Json :=
  (order.map (parserOf inner)).foldl alt empty

variable {inner : Parser Json} {order : List Production} {production : Production} {view : View}

theorem valueOf_eq_choice (inner : Parser Json) :
    valueOf inner = choice inner [null, bool, number, string, array, object] := by
  simp only [choice, List.map_cons, List.map_nil, List.foldl_cons, List.foldl_nil, empty_alt]
  rfl

theorem ahead?_of_head {first : Char} (head : view.chars.head? = some first) :
    ahead? view = ofFirst? first := by
  rw [ahead?, head, Option.bind_some]

theorem parserOf_eq_noMatch (foreign : ahead? view ≠ some production) :
    production.parserOf inner view = .noMatch := by
  have other (first : Char) (begins : ofFirst? first = some production) :
      view.chars.head? ≠ some first := fun head => foreign ((ahead?_of_head head).trans begins)
  cases production with
  | null => exact null_of_head (other 'n' rfl)
  | bool => exact bool_of_head (other 't' rfl) (other 'f' rfl)
  | number =>
    refine number_of_head (other '-' rfl) (Bool.eq_false_iff.mpr fun starts => ?_)
    obtain ⟨digit, head, isDigit⟩ := (Option.any_eq_true _ _).mp starts
    exact other digit (if_pos isDigit) head
  | string => exact string_of_head (other '"' rfl)
  | array => exact arrayOf_of_head (other '[' rfl)
  | object => exact objectOf_of_head (other '\x7b' rfl)

theorem choice_of_ahead (shown : ahead? view = some production) (member : production ∈ order) :
    choice inner order view = production.parserOf inner view := by
  refine foldl_alt_of_agreeing _ (fun parser listed => ?_)
    (.inr ⟨rfl, _, List.mem_map_of_mem member, rfl⟩)
  obtain ⟨other, _, rfl⟩ := List.mem_map.mp listed
  by_cases same : ahead? view = some other
  · rw [shown] at same
    cases same
    exact .inr rfl
  · exact .inl (parserOf_eq_noMatch same)

theorem choice_of_none (shown : ahead? view = none) : choice inner order view = .noMatch := by
  refine foldl_alt_of_agreeing _ (fun parser listed => ?_) (.inl rfl)
  obtain ⟨other, _, rfl⟩ := List.mem_map.mp listed
  exact .inl (parserOf_eq_noMatch (by simp [shown]))

end Production

variable {inner : Parser Json} {production : Production} {view : View}

/-- The first character decides which production is tried with any chance of success. -/
theorem valueOf_of_ahead (shown : Production.ahead? view = some production) :
    valueOf inner view = production.parserOf inner view := by
  rw [Production.valueOf_eq_choice]
  exact Production.choice_of_ahead shown (by cases production <;> simp)

theorem valueOf_of_none_ahead (shown : Production.ahead? view = none) :
    valueOf inner view = .noMatch := by
  rw [Production.valueOf_eq_choice]
  exact Production.choice_of_none shown

end Descent.Json.Grammar
