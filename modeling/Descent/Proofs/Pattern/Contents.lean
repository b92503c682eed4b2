import Descent.Pattern.Basic

/-!
What values and patterns are made of, with the induction over each and the views that stand in it.
-/

namespace Descent

namespace Value

@[induction_eliminator]
theorem induct {motive : Value → Prop} (null : motive .null)
    (bool : ∀ value, motive (.bool value)) (int : ∀ value, motive (.int value))
    (text : ∀ value, motive (.text value))
    (list : ∀ items, (∀ item ∈ items, motive item) → motive (.list items))
    (view : ∀ value, motive (.view value)) (json : ∀ value, motive (.json value))
    (function : ∀ transform, motive (.function transform))
    (constantly : ∀ result, motive result → motive (.constantly result))
    (pairing : ∀ left, motive left → motive (.pairing left))
    (adding : ∀ left, motive left → motive (.adding left)) (value : Value) : motive value := by
  refine Value.rec null bool int text list view json function constantly pairing adding ?_ ?_ value
  · exact fun _ member => absurd member List.not_mem_nil
  · intro head rest first others item member
    rcases List.mem_cons.mp member with rfl | later
    · exact first
    · exact others item later

mutual

def views : Value → List View
  | view found => [found]
  | list items => viewsAll items
  | constantly result => result.views
  | pairing left => left.views
  | adding left => left.views
  | _ => []

def viewsAll : List Value → List View
  | [] => []
  | value :: rest => value.views ++ viewsAll rest

end

theorem viewsAll_eq_flatMap (values : List Value) : viewsAll values = values.flatMap views := by
  induction values with
  | nil => rfl
  | cons value rest ih => rw [viewsAll, ih, List.flatMap_cons]

theorem views_subset_list {item : Value} {items : List Value} (inside : item ∈ items) :
    item.views ⊆ (list items).views := by
  intro view member
  rw [views, viewsAll_eq_flatMap]
  exact List.mem_flatMap.mpr ⟨item, inside, member⟩

end Value

namespace Pattern

variable {κ : Type}

@[induction_eliminator]
theorem induct {motive : Pattern κ → Prop} (char : ∀ text, motive (.char text))
    (literal : ∀ text, motive (.literal text)) (satisfy : ∀ chars, motive (.satisfy chars))
    (span : ∀ chars, motive (.span chars)) (maybe : ∀ text, motive (.maybe text))
    (just : ∀ value, motive (.just value)) (empty : motive .empty)
    (map : ∀ transform pattern, motive pattern → motive (.map transform pattern))
    (always : ∀ value pattern, motive pattern → motive (.always value pattern))
    (ap : ∀ function argument, motive function → motive argument → motive (.ap function argument))
    (lazyAp : ∀ function argument, motive function → motive argument →
      motive (.lazyAp function argument))
    (alt : ∀ first second, motive first → motive second → motive (.alt first second))
    (andThen : ∀ first second, motive first → motive second → motive (.andThen first second))
    (skip : ∀ first second, motive first → motive second → motive (.skip first second))
    (lift2 : ∀ combine first second, motive first → motive second →
      motive (.lift2 combine first second))
    (sequence : ∀ patterns, (∀ pattern ∈ patterns, motive pattern) → motive (.sequence patterns))
    (traverse : ∀ piece texts, motive (.traverse piece texts))
    (guard : ∀ check pattern, motive pattern → motive (.guard check pattern))
    (many : ∀ element, motive element → motive (.many element))
    (sepBy : ∀ separator element, motive separator → motive element →
      motive (.sepBy separator element))
    (rule : ∀ which, motive (.rule which)) (reference : ∀ target, motive (.reference target))
    (pattern : Pattern κ) : motive pattern := by
  refine Pattern.rec char literal satisfy span maybe just empty map always ap lazyAp alt andThen
    skip lift2 sequence traverse guard many sepBy rule reference ?_ ?_ pattern
  · exact fun _ member => absurd member List.not_mem_nil
  · intro head rest first others pattern member
    rcases List.mem_cons.mp member with rfl | later
    · exact first
    · exact others pattern later

mutual

def views : Pattern κ → List View
  | just value => value.views
  | always value pattern => value.views ++ pattern.views
  | map _ pattern => pattern.views
  | ap function argument => function.views ++ argument.views
  | lazyAp function argument => function.views ++ argument.views
  | alt first second => first.views ++ second.views
  | andThen first second => first.views ++ second.views
  | skip first second => first.views ++ second.views
  | lift2 _ first second => first.views ++ second.views
  | sequence patterns => viewsAll patterns
  | guard _ pattern => pattern.views
  | many element => element.views
  | sepBy separator element => separator.views ++ element.views
  | _ => []

def viewsAll : List (Pattern κ) → List View
  | [] => []
  | pattern :: rest => pattern.views ++ viewsAll rest

end

theorem viewsAll_eq_flatMap (patterns : List (Pattern κ)) :
    viewsAll patterns = patterns.flatMap views := by
  induction patterns with
  | nil => rfl
  | cons pattern rest ih => rw [viewsAll, ih, List.flatMap_cons]

theorem views_subset_sequence {pattern : Pattern κ} {patterns : List (Pattern κ)}
    (inside : pattern ∈ patterns) : pattern.views ⊆ (sequence patterns).views := by
  intro view member
  rw [views, viewsAll_eq_flatMap]
  exact List.mem_flatMap.mpr ⟨pattern, inside, member⟩

theorem evalAll_eq_map (enter : κ → Parser Value) (patterns : List (Pattern κ)) :
    evalAll enter patterns = patterns.map (eval enter) := by
  induction patterns with
  | nil => rfl
  | cons pattern rest ih => rw [evalAll, ih, List.map_cons]

end Pattern

end Descent
