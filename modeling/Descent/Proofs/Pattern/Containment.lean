import Descent.Proofs.Json.Nesting
import Descent.Proofs.Pattern.Endings
import Descent.Proofs.Pattern.Pairs

/-!
What a match of a described parser returns stays inside the input. The functions that patterns
compute with bring no views of their own into a value, and every constructor of patterns keeps to
the part of the view between where it starts and what it leaves.
-/

namespace Descent

namespace Value

theorem views_list (items : List Value) : (list items).views = items.flatMap views := by
  rw [views, viewsAll_eq_flatMap]

end Value

section Functions

variable {allowed : Allowance} (faulty : ∀ cause, allowed.ending (some cause))
include faulty

theorem Value.add_yields (first second : Value) :
    Yields allowed (first.views ++ second.views) views (first.add second) := by
  cases first with
  | int value =>
    cases second with
    | int added => exact .of_subset (List.nil_subset _)
    | _ => exact .error (faulty _)
  | text value =>
    cases second with
    | text added => exact .of_subset (List.nil_subset _)
    | _ => exact .error (faulty _)
  | list items =>
    cases second with
    | list added =>
      refine .of_subset ?_
      simp [views_list]
    | _ => exact .error (faulty _)
  | _ => exact .error (faulty _)

theorem Value.readInt_yields {sources : List View} (digits : List Char) :
    Yields allowed sources views (readInt digits) := by
  rw [readInt]
  split
  · exact .of_subset (List.nil_subset _)
  · exact .error (faulty _)

theorem Transform.apply_yields (transform : Transform) (value : Value) :
    Yields allowed value.views Value.views (transform.apply value) := by
  rw [Transform.apply.eq_def]
  split
  · exact .of_subset (List.Subset.refl _)
  · refine .of_subset ?_
    simp [Value.views_list]
  · exact .of_subset (List.Subset.refl _)
  · exact .of_subset (List.Subset.refl _)
  · exact .of_subset (List.Subset.refl _)
  · cases value.length with
    | ok count => exact .of_subset (List.nil_subset _)
    | error cause => exact .error (faulty cause)
  · exact .of_subset (List.nil_subset _)
  · exact .of_subset (List.nil_subset _)
  · refine .of_subset fun found member => ?_
    simpa [Value.views_list] using member
  · exact Value.readInt_yields faulty _
  · exact Value.readInt_yields faulty _
  · exact .of_subset (List.nil_subset _)
  · exact .of_subset (List.nil_subset _)
  · exact .error (faulty _)

theorem Combine.apply_yields (combine : Combine) (first second : Value) :
    Yields allowed (first.views ++ second.views) Value.views (combine.apply first second) := by
  rw [Combine.apply.eq_def]
  split
  · refine .of_subset ?_
    simp [Value.views_list]
  · exact .of_subset (List.subset_append_left _ _)
  · exact .of_subset (List.subset_append_right _ _)
  · exact Value.add_yields faulty first second
  · refine .of_subset ?_
    simp [Value.views_list]
  · refine .of_subset ?_
    simp [Value.views_list]
  · exact .error (faulty _)

theorem Value.apply_yields (function argument : Value) :
    Yields allowed (function.views ++ argument.views) views (function.apply argument) := by
  cases function with
  | function transform => exact Transform.apply_yields faulty transform argument
  | constantly result => exact .of_subset (List.subset_append_left _ _)
  | pairing left =>
    refine .of_subset ?_
    rw [views_list]
    simp [views]
  | adding left => exact Value.add_yields faulty left argument
  | _ => exact .error (faulty _)

theorem Check.holds_yields (check : Check) (value : Value) :
    Yields allowed [] holdsNone (check.holds value) := by
  cases check.holds value with
  | ok passes => exact .none
  | error cause => exact .error (faulty cause)

end Functions

section Runs

variable {κ : Type} {allowed : Allowance} {ready : View → Prop} {enter : κ → Parser Value}

theorem Parser.Stays.list {parser : Parser (List Value)} {before after : View → Prop}
    (stays : parser.Stays allowed before after fun values => values.flatMap Value.views) :
    (parser.map fun values => .ok (.list values)).Stays allowed before after Value.views :=
  stays.map fun values _ => .of_subset (Value.views_list values ▸ List.Subset.refl _)

theorem Piece.character_stays (lasting : View.Lasting ready) (text : String) :
    (character text).Stays allowed ready ready Value.views := by
  rw [character]
  split
  · exact (Parser.Stays.char fun split => lasting split.reaches).always fun _ member =>
      absurd member List.not_mem_nil
  · exact .empty

theorem Piece.parser_stays (lasting : View.Lasting ready) (piece : Piece) (text : String) :
    (piece.parser text).Stays allowed ready ready Value.views := by
  cases piece with
  | char => exact character_stays lasting text
  | literal =>
    exact (Parser.Stays.literal fun split => lasting split.reaches).map fun _ _ =>
      .of_subset (List.nil_subset _)
  | maybe =>
    exact (character_stays lasting text).alt (.just fun _ member => absurd member List.not_mem_nil)

theorem Pattern.Atomic.eval_stays {pattern : Pattern κ} (atomic : Atomic pattern)
    (lasting : View.Lasting ready) (own : ∀ view ∈ pattern.views, allowed.view view) :
    (pattern.eval enter).Stays allowed ready ready Value.views := by
  cases atomic with
  | char text => exact Piece.char.parser_stays lasting text
  | literal text => exact Piece.literal.parser_stays lasting text
  | satisfy chars =>
    exact (Parser.Stays.satisfy fun split _ => lasting split.reaches).map fun _ _ =>
      .of_subset (List.nil_subset _)
  | span chars => exact (Parser.Stays.span lasting _).map fun _ _ => .of_subset fun _ => id
  | maybe text => exact Piece.maybe.parser_stays lasting text
  | just value => exact .just own
  | empty => exact .empty
  | nothing => exact .just fun _ member => absurd member List.not_mem_nil
  | traverse piece texts =>
    refine (Parser.Stays.sequence fun parser member => ?_).list
    obtain ⟨text, _, rfl⟩ := List.mem_map.mp member
    exact piece.parser_stays lasting text
  | rule which => exact Json.Grammar.rule_stays lasting which

theorem Pattern.Pairs.eval_stays {before middle after : View → Prop} {pattern first second : Pattern κ}
    {join : Value → Value → Except Fault Value} (pairs : Pairs pattern join first second)
    (faulty : ∀ cause, allowed.ending (some cause))
    (firsts : (first.eval enter).Stays allowed before middle Value.views)
    (seconds : (second.eval enter).Stays allowed middle after Value.views) :
    (pattern.eval enter).Stays allowed before after Value.views := by
  have yields : ∀ left right : Value,
      Yields allowed (left.views ++ right.views) Value.views (join left right) := by
    intro left right
    cases pairs with
    | ap => exact Value.apply_yields faulty left right
    | lazyAp => exact Value.apply_yields faulty left right
    | andThen => exact .of_subset (List.subset_append_right _ _)
    | skip => exact .of_subset (List.subset_append_left _ _)
    | lift2 combine => exact combine.apply_yields faulty left right
    | sequence => exact Combine.cons.apply_yields faulty left right
  rw [pairs.eval_eq]
  exact firsts.lift2 seconds fun left right _ _ => yields left right

theorem Pattern.eval_stays (faulty : ∀ cause, allowed.ending (some cause))
    (lasting : View.Lasting ready)
    (entries : ∀ target, (enter target).Stays allowed ready ready Value.views) {pattern : Pattern κ}
    (own : ∀ view ∈ pattern.views, allowed.view view) :
    (pattern.eval enter).Stays allowed ready ready Value.views := by
  induction pattern using induct_pairs with
  | atomic pattern atomic => exact atomic.eval_stays lasting own
  | map transform pattern ih =>
    -- A function may be given a value that it does not take, hence the faults that are allowed.
    exact (ih own).map fun value _ => transform.apply_yields faulty value
  | always value pattern ih =>
    obtain ⟨constant, own⟩ := List.forall_mem_append.mp own
    exact (ih own).always constant
  | guard check pattern ih => exact (ih own).guard fun value _ => check.holds_yields faulty value
  | pair pattern join first second pairs firsts seconds =>
    rw [pairs.views_eq] at own
    obtain ⟨left, right⟩ := List.forall_mem_append.mp own
    exact pairs.eval_stays faulty (firsts left) (seconds right)
  | alt first second firsts seconds =>
    obtain ⟨left, right⟩ := List.forall_mem_append.mp own
    exact (firsts left).alt (seconds right)
  | many element ih => exact (ih own).many.list
  | sepBy separator element separators elements =>
    obtain ⟨left, right⟩ := List.forall_mem_append.mp own
    exact ((separators left).sepBy (elements right)).list
  | reference target => exact entries target

end Runs

namespace Meanings

variable {κ : Type} (meanings : Meanings κ)

theorem enter_stays {allowed : Allowance} {ready : View → Prop} (lasting : View.Lasting ready)
    (faulty : ∀ cause, allowed.ending cause)
    (own : ∀ target definition, meanings target = .ok definition →
      ∀ view ∈ definition.views, allowed.view view) (fuel : Nat) (target : κ) :
    (meanings.enter fuel target).Stays allowed ready ready Value.views := by
  induction fuel generalizing target with
  | zero => exact fun _ _ => .exhausted (faulty none)
  | succ fuel ih =>
    rw [enter]
    split
    · rename_i definition meant
      exact Pattern.eval_stays (fun cause => faulty (some cause)) lasting ih (own target definition meant)
    · exact fun _ _ => .fault (faulty (some _))

/-- A match leaves the later part of its view, and the views in what it returns lie before that
part, those that a function in it adds to its argument included. Only a view that the grammar itself
holds as a constant is no part of the input; with plain constants there is none. -/
theorem match_stays_inside (pattern : Pattern κ) {view rest : View} {value : Value}
    (ends : meanings.Ends pattern view (.matched value rest)) :
    (rest.buffer = view.buffer ∧ rest.stop = view.stop ∧ view.offset ≤ rest.offset ∧
      rest.offset ≤ view.offset + view.length ∧ view.chars = view.upTo rest ++ rest.chars ∧
      (view.upTo rest).length + rest.length = view.length) ∧
    (∀ found ∈ value.views, view.Between rest found ∨ meanings.Mentions pattern found) ∧
    ∀ argument result, value.apply argument = .ok result → ∀ found ∈ result.views,
      found ∈ argument.views ∨ view.Between rest found ∨ meanings.Mentions pattern found := by
  obtain ⟨_, fuel, parsed⟩ := ends
  let allowed : Allowance := ⟨fun _ => True, meanings.Mentions pattern⟩
  have stays : (pattern.eval (meanings.enter fuel)).Stays allowed (fun _ => True) (fun _ => True)
      Value.views := by
    refine Pattern.eval_stays (fun _ => trivial) View.lasting_true ?_ fun view inside => .inl inside
    refine meanings.enter_stays View.lasting_true (fun _ => trivial) ?_ fuel
    exact fun target definition meant view inside => .inr ⟨target, definition, meant, inside⟩
  have stays := stays view trivial
  rw [parsed] at stays
  cases stays with
  | matched reaches _ inside =>
    obtain ⟨word, split⟩ := reaches
    refine ⟨?_, inside, fun argument result applied found member => ?_⟩
    · have lengths := split.length
      have start := split.start
      rw [split.upTo_eq]
      refine ⟨split.buffer, split.stop, ?_, ?_, split.chars, lengths.symm⟩
      · simp only [View.offset]
        omega
      · simp only [View.offset]
        omega
    · have yields : Yields allowed _ _ _ := Value.apply_yields (fun _ => trivial) value argument
      rw [applied] at yields
      cases yields with
      | ok subset =>
        rcases subset found member with source | mentioned
        · rcases List.mem_append.mp source with captured | given
          · exact .inr (inside found captured)
          · exact .inl given
        · exact .inr (.inr mentioned)

def unreferenced : Meanings Empty :=
  nofun

def pairedDigits : Pattern Empty :=
  .sepBy (.char ",") (.map .pairWith (.span .digit))

theorem pairedDigits_stays_inside :
    ∃ value rest, unreferenced.Ends pairedDigits ((View.of "a12,3,x").drop 1) (.matched value rest) ∧
      rest.text = "x" ∧ value.views.map View.text = ["12", "3", ""] ∧
      ∀ found ∈ value.views, ((View.of "a12,3,x").drop 1).Between rest found := by
  obtain ⟨value, rest, ends, left, texts⟩ : ∃ value rest,
      unreferenced.Ends pairedDigits ((View.of "a12,3,x").drop 1) (.matched value rest) ∧
      rest.text = "x" ∧ value.views.map View.text = ["12", "3", ""] :=
    ⟨_, _, ⟨nofun, 0, by cbv⟩, by cbv, by cbv⟩
  refine ⟨value, rest, ends, left, texts, fun found member => ?_⟩
  have inside := (unreferenced.match_stays_inside pairedDigits ends).2.1 found member
  refine inside.resolve_right ?_
  rintro (own | ⟨target, _⟩)
  · exact absurd own List.not_mem_nil
  · cases target

end Meanings

end Descent
