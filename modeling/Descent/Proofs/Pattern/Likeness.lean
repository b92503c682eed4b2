import Descent.Pattern.Recursion
import Descent.Proofs.Json.Likeness
import Descent.Proofs.Pattern.Contents

/-!
A pattern runs alike on views that go together, whatever its references are entered as, as long as
these run alike too.
-/

namespace Descent

namespace Value

inductive Alike (held : View → View → Prop) : Value → Value → Prop
  | null : Alike held .null .null
  | bool (value) : Alike held (.bool value) (.bool value)
  | int (value) : Alike held (.int value) (.int value)
  | text (value) : Alike held (.text value) (.text value)
  | list {items others} : List.Forall₂ (Alike held) items others →
      Alike held (.list items) (.list others)
  | view {found other} : held found other → Alike held (.view found) (.view other)
  | json (value) : Alike held (.json value) (.json value)
  | function (transform) : Alike held (.function transform) (.function transform)
  | constantly {result other} : Alike held result other →
      Alike held (.constantly result) (.constantly other)
  | pairing {left other} : Alike held left other → Alike held (.pairing left) (.pairing other)
  | adding {left other} : Alike held left other → Alike held (.adding left) (.adding other)

theorem alike_self {held : View → View → Prop} {value : Value}
    (fixed : ∀ view ∈ value.views, held view view) : value.Alike held value := by
  induction value with
  | null => exact .null
  | bool value => exact .bool value
  | int value => exact .int value
  | text value => exact .text value
  | list items ih =>
    refine .list (List.forall₂_same.mpr fun item inside => ?_)
    exact ih item inside fun view member => fixed view (views_subset_list inside member)
  | view found => exact .view (fixed found (List.mem_singleton_self found))
  | json value => exact .json value
  | function transform => exact .function transform
  | constantly result ih => exact .constantly (ih fixed)
  | pairing left ih => exact .pairing (ih fixed)
  | adding left ih => exact .adding (ih fixed)

variable {like : Likeness} {value other first first' second second' : Value}

theorem length_of_alike (alike : value.Alike like.held other) : value.length = other.length := by
  cases alike with
  | list items => rw [length, length, items.length_eq]
  | view held =>
    rw [length, length, ← View.length_chars, ← View.length_chars, like.chars_of_held held]
  | _ => rfl

theorem add_alike (firsts : first.Alike like.held first') (seconds : second.Alike like.held second') :
    Computed (Alike like.held) (first.add second) (first'.add second') := by
  cases firsts with
  | int value =>
    cases seconds with
    | int added => exact .ok (.int _)
    | _ => exact .error _
  | text value =>
    cases seconds with
    | text added => exact .ok (.text _)
    | _ => exact .error _
  | list items =>
    cases seconds with
    | list added => exact .ok (.list (List.rel_append items added))
    | _ => exact .error _
  | _ => exact .error _

theorem readInt_alike (digits : List Char) :
    Computed (Alike like.held) (readInt digits) (readInt digits) := by
  rw [readInt]
  split
  · exact .ok (.int _)
  · exact .error _

end Value

section Functions

variable {like : Likeness} {value other first first' second second' : Value}

open Value (Alike)

theorem Transform.apply_alike (transform : Transform) (values : value.Alike like.held other) :
    Computed (Alike like.held) (transform.apply value) (transform.apply other) := by
  cases transform with
  | identity => exact .ok values
  | box => exact .ok (.list (.cons values .nil))
  | constant => exact .ok (.constantly values)
  | pairWith => exact .ok (.pairing values)
  | addTo => exact .ok (.adding values)
  | length =>
    rw [apply, apply, Value.length_of_alike values]
    cases other.length with
    | ok count => exact .ok (.int _)
    | error cause => exact .error cause
  | text =>
    cases values with
    | text value => exact .ok (.text value)
    | view held =>
      rw [apply, apply, Json.Grammar.text_eq_of_held held]
      exact .ok (.text _)
    | _ => exact .error _
  | reverse =>
    cases values with
    | list items => exact .ok (.list (List.rel_reverse items))
    | _ => exact .error _
  | int =>
    cases values with
    | text value => exact Value.readInt_alike _
    | view held =>
      rw [apply, apply, like.chars_of_held held]
      exact Value.readInt_alike _
    | _ => exact .error _
  | double =>
    cases values with
    | int value => exact .ok (.int _)
    | _ => exact .error _
  | negate =>
    cases values with
    | int value => exact .ok (.int _)
    | _ => exact .error _

theorem Combine.apply_alike (combine : Combine) (firsts : first.Alike like.held first')
    (seconds : second.Alike like.held second') :
    Computed (Alike like.held) (combine.apply first second) (combine.apply first' second') := by
  cases combine with
  | pair => exact .ok (.list (.cons firsts (.cons seconds .nil)))
  | left => exact .ok firsts
  | right => exact .ok seconds
  | add => exact Value.add_alike firsts seconds
  | cons =>
    cases seconds with
    | list items => exact .ok (.list (.cons firsts items))
    | _ => exact .error _
  | snoc =>
    cases firsts with
    | list items => exact .ok (.list (List.rel_append items (.cons seconds .nil)))
    | _ => exact .error _

theorem Value.apply_alike (functions : first.Alike like.held first')
    (arguments : second.Alike like.held second') :
    Computed (Alike like.held) (first.apply second) (first'.apply second') := by
  cases functions with
  | function transform => exact transform.apply_alike arguments
  | constantly result => exact .ok result
  | pairing left => exact .ok (.list (.cons left (.cons arguments .nil)))
  | adding left => exact Value.add_alike left arguments
  | _ => exact .error _

theorem Check.holds_of_alike (check : Check) (values : value.Alike like.held other) :
    check.holds value = check.holds other := by
  cases check with
  | notEmpty => rw [holds, holds, Value.length_of_alike values]
  | even => cases values <;> rfl
  | always => rfl
  | never => rfl
  | maxLength bound => rw [holds, holds, Value.length_of_alike values]
  | between least greatest => cases values <;> rfl

theorem JsonRule.parser_alike (rule : JsonRule) :
    rule.parser.Alike like (Alike like.held) rule.parser := by
  have json {parser : Parser Json} (alike : parser.Alike like Eq parser) :
      (parser.map fun value => .ok (.json value)).Alike like (Alike like.held)
        (parser.map fun value => .ok (.json value)) :=
    alike.map fun found _ same => .ok (same ▸ .json found)
  cases rule with
  | null => exact json Json.Grammar.null_alike
  | bool => exact json Json.Grammar.bool_alike
  | number => exact json Json.Grammar.number_alike
  | stringLiteral => exact Json.Grammar.stringLiteral_alike.map fun _ _ held => .ok (.view held)
  | string => exact json Json.Grammar.string_alike
  | array => exact json (Json.Grammar.arrayOf_alike Json.Grammar.value_alike)
  | object => exact json (Json.Grammar.objectOf_alike Json.Grammar.value_alike)
  | value => exact json Json.Grammar.value_alike
  | whitespace => exact (Parser.Alike.span _).map fun _ _ held => .ok (.view held)

theorem Piece.character_alike (text : String) :
    (character text).Alike like (Alike like.held) (character text) := by
  rw [character]
  split
  · exact (Parser.Alike.char _).always (.text text)
  · exact .empty

theorem Piece.parser_alike (piece : Piece) (text : String) :
    (piece.parser text).Alike like (Alike like.held) (piece.parser text) := by
  cases piece with
  | char => exact character_alike text
  | literal => exact (Parser.Alike.literal text).map fun found _ same => .ok (same ▸ .text found)
  | maybe => exact (character_alike text).alt (.just .null)

end Functions

namespace Pattern

variable {κ : Type}

section Runs

variable {like : Likeness} {enter again : κ → Parser Value}

open Value (Alike)

theorem traverse_alike (piece : Piece) (texts : List String) :
    (Parser.traverse piece.parser texts).Alike like (List.Forall₂ (Alike like.held))
      (Parser.traverse piece.parser texts) := by
  refine .sequence ?_
  rw [List.forall₂_same]
  intro parser member
  obtain ⟨text, _, rfl⟩ := List.mem_map.mp member
  exact piece.parser_alike text

theorem eval_alike (entries : ∀ target, (enter target).Alike like (Alike like.held) (again target))
    {pattern : Pattern κ} (fixed : ∀ view ∈ pattern.views, like.held view view) :
    (pattern.eval enter).Alike like (Alike like.held) (pattern.eval again) := by
  induction pattern with
  | char text => exact Piece.char.parser_alike text
  | literal text => exact Piece.literal.parser_alike text
  | satisfy chars => exact (Parser.Alike.satisfy _).map fun _ _ same => .ok (same ▸ .text _)
  | span chars => exact (Parser.Alike.span _).map fun _ _ held => .ok (.view held)
  | maybe text => exact Piece.maybe.parser_alike text
  | just value => exact .just (Value.alike_self fixed)
  | empty => exact .empty
  | map transform pattern ih => exact (ih fixed).map fun _ _ values => transform.apply_alike values
  | always value pattern ih =>
    obtain ⟨constant, fixed⟩ := List.forall_mem_append.mp fixed
    exact (ih fixed).always (Value.alike_self constant)
  | ap function argument functions arguments =>
    obtain ⟨left, right⟩ := List.forall_mem_append.mp fixed
    refine ((functions left).map fun _ _ applied => ?_).ap (arguments right)
    exact .ok fun _ _ values => Value.apply_alike applied values
  | lazyAp function argument functions arguments =>
    obtain ⟨left, right⟩ := List.forall_mem_append.mp fixed
    refine ((functions left).map fun _ _ applied => ?_).ap (arguments right)
    exact .ok fun _ _ values => Value.apply_alike applied values
  | alt first second firsts seconds =>
    obtain ⟨left, right⟩ := List.forall_mem_append.mp fixed
    exact (firsts left).alt (seconds right)
  | andThen first second firsts seconds =>
    obtain ⟨left, right⟩ := List.forall_mem_append.mp fixed
    exact (firsts left).andThen (seconds right)
  | skip first second firsts seconds =>
    obtain ⟨left, right⟩ := List.forall_mem_append.mp fixed
    exact (firsts left).skip (seconds right)
  | lift2 combine first second firsts seconds =>
    obtain ⟨left, right⟩ := List.forall_mem_append.mp fixed
    refine .lift2 (firsts left) (seconds right) ?_
    exact fun _ _ values _ _ others => combine.apply_alike values others
  | sequence patterns ih =>
    have each : List.Forall₂ (Parser.Alike like (Alike like.held)) (evalAll enter patterns)
        (evalAll again patterns) := by
      rw [evalAll_eq_map, evalAll_eq_map, List.forall₂_map_left_iff, List.forall₂_map_right_iff,
        List.forall₂_same]
      intro pattern inside
      exact ih pattern inside fun view member => fixed view (views_subset_sequence inside member)
    exact (Parser.Alike.sequence each).map fun _ _ items => .ok (.list items)
  | traverse piece texts => exact (traverse_alike piece texts).map fun _ _ items => .ok (.list items)
  | guard check pattern ih => exact (ih fixed).guard fun _ _ values => check.holds_of_alike values
  | many element ih => exact (ih fixed).many.map fun _ _ items => .ok (.list items)
  | sepBy separator element separators elements =>
    obtain ⟨left, right⟩ := List.forall_mem_append.mp fixed
    exact (Parser.Alike.sepBy (separators left) (elements right)).map
      fun _ _ items => .ok (.list items)
  | rule which => exact which.parser_alike
  | reference target => exact entries target

end Runs

end Pattern

end Descent
