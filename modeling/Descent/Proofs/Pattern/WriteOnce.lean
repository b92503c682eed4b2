import Descent.Proofs.Json.Sameness
import Descent.Proofs.Pattern.Enough
import Descent.Proofs.Pattern.LateNames
import Mathlib

/-!
Cells are written once. What a parser does depends on the first definitions of cells only, whenever
they were made, and once a run does not come to a cell that is still undefined, nothing that follows
changes it.
-/

namespace Descent

namespace Session

variable {session : Session} {key : String} {id : CellId} {pattern : Pattern String}
variable {built : Pattern Reference}

def references (session : Session) : Finset Reference :=
  (Finset.range session.cells.all.size).image .cell ∪
    (session.scope.map Prod.fst).toFinset.image .name

theorem mem_references {reference : Reference} {definition : Pattern Reference}
    (meant : session.meanings reference = .ok definition) : reference ∈ session.references := by
  rw [references, Finset.mem_union, Finset.mem_image, Finset.mem_image]
  cases reference with
  | cell id =>
    refine .inl ⟨id, Finset.mem_range.mpr ?_, rfl⟩
    exact Cells.lt_size_of_meaning meant
  | name key =>
    refine .inr ⟨key, List.mem_toFinset.mpr ?_, rfl⟩
    rw [meanings, find] at meant
    split at meant
    · rename_i found
      exact List.mem_map_of_mem (Json.mem_of_lookup found)
    · cases meant

theorem card_references (session : Session) :
    session.references.card ≤ session.cells.all.size + session.scope.length := by
  have cells : ((Finset.range session.cells.all.size).image Reference.cell).card ≤
      session.cells.all.size :=
    Finset.card_image_le.trans_eq (Finset.card_range _)
  have names : ((session.scope.map Prod.fst).toFinset.image Reference.name).card ≤
      session.scope.length :=
    Finset.card_image_le.trans ((List.toFinset_card_le _).trans_eq (List.length_map _))
  exact (Finset.card_union_le _ _).trans (Nat.add_le_add cells names)

/-- What a session answers to a run is how it ends, if it ends at all. -/
theorem runPattern_eq_iff_ends {pattern : Pattern Reference} {view : View} {reply : Reply Value}
    (ended : reply ≠ .exhausted) :
    session.runPattern pattern view = reply ↔ session.meanings.Ends pattern view reply :=
  Meanings.run_eq_iff_ends (fun _ _ => mem_references) session.card_references ended

theorem runPattern_congr {first second : Session} {pattern : Pattern Reference}
    (agree : ∀ reference, first.meanings.Relies pattern reference →
      first.meanings reference = second.meanings reference) (view : View) :
    first.runPattern pattern view = second.runPattern pattern view := by
  have same {reply : Reply Value} (ended : reply ≠ .exhausted) :
      first.runPattern pattern view = reply ↔ second.runPattern pattern view = reply := by
    rw [runPattern_eq_iff_ends ended, runPattern_eq_iff_ends ended, Meanings.ends_congr agree]
  by_cases ended : first.runPattern pattern view = .exhausted
  · by_contra different
    have endedToo : second.runPattern pattern view ≠ .exhausted :=
      fun exhausted => different (ended.trans exhausted.symm)
    exact different ((same endedToo).mpr rfl)
  · exact ((same ended).mp rfl).symm

theorem lookup_swap {first second : Option (CellId × Pattern Reference)}
    (apart : ∀ id built, first = some (id, built) → ∀ other, second ≠ some (id, other)) (id : CellId) :
    (first.toList ++ second.toList).lookup id = (second.toList ++ first.toList).lookup id := by
  cases first with
  | none => rw [Option.toList_none, List.nil_append, List.append_nil]
  | some one =>
    cases second with
    | none => rfl
    | some other =>
      obtain ⟨own, built⟩ := one
      obtain ⟨last, others⟩ := other
      have distinct : own ≠ last := by
        rintro rfl
        exact apart own built rfl others rfl
      simp only [Option.toList_some, List.singleton_append, List.lookup_cons, List.lookup_nil]
      by_cases same : id = own
      · rw [same, beq_self_eq_true, beq_false_of_ne distinct]
      · rw [beq_false_of_ne same]

/-- A definition may as well be made after the next step, if it asks for the same then and is not the
definition of the same cell. -/
theorem step_exchange {first second : SessionStep} (known : session.Known) (defines : first.defines = true)
    (unmoved : (session.step second).1.asked? first = session.asked? first)
    (apart : ∀ id built, session.asked? first = some (id, built) →
      ∀ other, session.asked? second ≠ some (id, other)) :
    (session.run [first, second]).1 = (session.run [second, first]).1 := by
  have filtered : [first, second].filter (fun step => !step.defines) =
      [second, first].filter fun step => !step.defines := by
    simp [List.filter_cons, defines]
  have names := (SameNames.refl session).run_filter [first, second]
  rw [filtered] at names
  refine (names.trans ((SameNames.refl session).run_filter [second, first]).symm).eq_of_definitions ?_
  intro id
  have alike : (session.step first).1.asked? second = session.asked? second :=
    (SameNames.of_defines (session.turns first) defines).asked?_eq second
  rw [definition?_run known, definition?_run known, definitions, definitions, definitions, definitions,
    definitions, definitions, alike, unmoved, List.append_nil, List.append_nil, lookup_swap apart]

/-- The reference stands for the same after both lists of steps, as far as the first definitions of
cells and the names they were made with tell. -/
def AgreeOn (steps others : List SessionStep) : Reference → Prop
  | .cell id => firstDefinition? steps id = firstDefinition? others id ∧
      (after steps).cells.name id = (after others).cells.name id
  | .name key => (after steps).find key = (after others).find key

theorem meanings_eq_of_agree {steps others : List SessionStep} {reference : Reference}
    (agree : AgreeOn steps others reference) :
    (after steps).meanings reference = (after others).meanings reference := by
  cases reference with
  | cell id =>
    obtain ⟨definition, name⟩ := agree
    rw [← definition?_after, ← definition?_after] at definition
    rw [meanings, meanings, Cells.meaning, Cells.meaning, definition, name]
  | name key => exact agree

theorem meaning_kept (steps later : List SessionStep) (id : CellId) :
    (after steps).cells.meaning id = (after (steps ++ later)).cells.meaning id ∨
      ∃ cause, (after steps).cells.meaning id = .error cause ∧ ∃ name, cause = .undefinedCell name := by
  cases defined : (after steps).cells.definition? id with
  | none =>
    have undefined : (after steps).cells.meaning id = .error (.undefinedCell ((after steps).cells.name id)) := by
      rw [Cells.meaning, defined]
    exact .inr ⟨_, undefined, _, rfl⟩
  | some built =>
    have kept : (after (steps ++ later)).cells.definition? id = some built := by
      rw [after_append, definition?_run (known_after steps), defined, Option.some_or]
    rw [Cells.meaning, Cells.meaning, defined, kept]
    exact .inl rfl

/-- Further steps change no run that ends without coming to a cell that is undefined, if they do not
give anew a name that the run looks up when it gets there. -/
theorem runPattern_kept (steps later : List SessionStep) {pattern : Pattern Reference} {view : View}
    {reply : Reply Value}
    (apart : ∀ key, (after steps).meanings.Relies pattern (.name key) →
      ∀ step ∈ later, step.gives? ≠ some key)
    (ended : reply ≠ .exhausted) (defined : ∀ name, reply ≠ .fault (.undefinedCell name))
    (run : (after steps).runPattern pattern view = reply) :
    (after (steps ++ later)).runPattern pattern view = reply := by
  have agree (reference : Reference) (relies : (after steps).meanings.Relies pattern reference) :
      (after steps).meanings reference = (after (steps ++ later)).meanings reference ∨
        ∃ cause, (after steps).meanings reference = .error cause ∧
          ∃ name, cause = .undefinedCell name := by
    cases reference with
    | cell id => exact meaning_kept steps later id
    | name key =>
      have same := find_run (after steps) later key (apart key relies)
      rw [← after_append] at same
      exact .inl same.symm
  rw [runPattern_eq_iff_ends ended] at run ⊢
  refine run.kept agree ?_
  rintro cause ⟨name, rfl⟩
  exact defined name

structure CellLaws (steps : List SessionStep) : Prop where
  definition_eq : ∀ id, (after steps).cells.definition? id = firstDefinition? steps id
  /-- The first definition of a cell succeeds, and changes nothing but what this cell stands for. -/
  define_first : ∀ {key pattern id built}, (after steps).findCell key = .ok (.made id) →
    (after steps).build pattern = .ok built → firstDefinition? steps id = none →
    ∃ next, (after steps).step (.define key pattern) = (next, .done) ∧ next.SameNames (after steps) ∧
      ∀ other, next.cells.definition? other =
        if other = id then some built else (after steps).cells.definition? other
  /-- A later definition is refused, and whatever follows is as if it had not been asked for. -/
  define_again : ∀ {key pattern cell built}, (after steps).findCell key = .ok cell →
    (after steps).build pattern = .ok built →
    (∀ id, cell = .made id → firstDefinition? steps id ≠ none) →
    ∀ later, (after steps).run (.define key pattern :: later) =
      (((after steps).run later).1,
        .refused (.redefinedCell ((after steps).cellName cell)) :: ((after steps).run later).2)
  run_iff_ends : ∀ {pattern view reply}, reply ≠ .exhausted →
    ((after steps).runPattern pattern view = reply ↔ (after steps).meanings.Ends pattern view reply)
  /-- A run depends on the first definitions of the cells that it may come to. -/
  run_of_agree : ∀ {others pattern},
    (∀ reference, (after steps).meanings.Relies pattern reference → AgreeOn steps others reference) →
    ∀ view, (after steps).runPattern pattern view = (after others).runPattern pattern view
  /-- Which definitions were made has no part in how a parser is built. -/
  build_of_filter : ∀ {others},
    steps.filter (fun step => !step.defines) = others.filter (fun step => !step.defines) →
    (after steps).build = (after others).build
  after_of_filter : ∀ {others},
    steps.filter (fun step => !step.defines) = others.filter (fun step => !step.defines) →
    (∀ id, firstDefinition? steps id = firstDefinition? others id) → after steps = after others
  /-- Defining a cell before or after another step is the same, a definition of another cell or one
  that builds a parser, as long as the definition itself is read in the same way. -/
  exchange : ∀ {first second}, first.defines = true →
    ((after steps).step second).1.asked? first = (after steps).asked? first →
    (∀ id built, (after steps).asked? first = some (id, built) →
      ∀ other, (after steps).asked? second ≠ some (id, other)) →
    ∀ later, after (steps ++ first :: second :: later) = after (steps ++ second :: first :: later)
  /-- A run that does not end at an undefined cell ends in the same way after any further steps. They
  may not give anew a name that the run looks up only when it gets there. -/
  run_kept : ∀ {later pattern view reply},
    (∀ key, (after steps).meanings.Relies pattern (.name key) →
      ∀ step ∈ later, step.gives? ≠ some key) →
    reply ≠ .exhausted → (∀ name, reply ≠ .fault (.undefinedCell name)) →
    (after steps).runPattern pattern view = reply →
    (after (steps ++ later)).runPattern pattern view = reply
  /-- There are such names only in the parts of descriptions that `lazyAp` asks for later. -/
  late_of_relies : ∀ {key pattern late}, (after steps).find key = .ok pattern →
    (after steps).meanings.Relies pattern (.name late) → late ∈ steps.flatMap SessionStep.late

theorem define_first (known : session.Known) (found : session.findCell key = .ok (.made id))
    (resolved : session.build pattern = .ok built) (undefined : session.cells.definition? id = none) :
    ∃ next, session.step (.define key pattern) = (next, .done) ∧ next.SameNames session ∧
      ∀ other, next.cells.definition? other =
        if other = id then some built else session.cells.definition? other := by
  have asked := asked?_define.mpr ⟨found, resolved⟩
  obtain ⟨cells, defined⟩ := Cells.define_of_undefined undefined built
  refine ⟨{ session with cells }, ?_, ⟨rfl, Cells.names_define defined⟩, ?_⟩
  · rw [step_of_asked asked, defined]
  · exact Cells.definition?_define defined (known_of_asked known asked)

theorem define_again {cell : KnownCell} (found : session.findCell key = .ok cell)
    (resolved : session.build pattern = .ok built)
    (defined : ∀ id, cell = .made id → session.cells.definition? id ≠ none) :
    session.step (.define key pattern) =
      (session, .refused (.redefinedCell (session.cellName cell))) := by
  cases cell with
  | made id =>
    obtain ⟨earlier, defined⟩ := Option.ne_none_iff_exists'.mp (defined id rfl)
    rw [step_of_asked (asked?_define.mpr ⟨found, resolved⟩), Cells.define_of_defined defined]
    rfl
  | jsonValue =>
    rw [Session.step, attempt, found, resolved]
    rfl

theorem cells_write_once (steps : List SessionStep) : CellLaws steps where
  definition_eq := definition?_after steps
  define_first := by
    intro key pattern id built found resolved undefined
    rw [← definition?_after] at undefined
    exact Session.define_first (known_after steps) found resolved undefined
  define_again := by
    intro key pattern cell built found resolved defined later
    simp only [← definition?_after] at defined
    rw [run_cons, Session.define_again found resolved defined]
  run_iff_ends := runPattern_eq_iff_ends
  run_of_agree := by
    intro others pattern agree
    exact runPattern_congr fun reference relies => meanings_eq_of_agree (agree reference relies)
  build_of_filter := by
    intro others rest
    exact (sameNames_after rest).build_eq
  after_of_filter := by
    intro others rest definitions
    simp only [← definition?_after] at definitions
    exact (sameNames_after rest).eq_of_definitions definitions
  exchange := by
    intro first second defines unmoved apart later
    have swapped := step_exchange (known_after steps) defines unmoved apart
    rw [after_append, after_append]
    exact congrArg (fun session => (Session.run session later).1) swapped
  run_kept := runPattern_kept steps _
  late_of_relies := late_of_relies

def pairSteps : List SessionStep :=
  [.cell "item" "item", .name "pair" (.sequence [.reference "item", .char ",", .reference "item"]),
    .define "item" (.span .digit)]

def pair : Pattern Reference :=
  .sequence [.reference (.cell 0), .char ",", .reference (.cell 0)]

theorem pairSteps_write_once :
    (after pairSteps).run [.define "item" .empty, .describe "item"] =
      (after pairSteps, [.refused (.redefinedCell "item"), .description "<Forward item>"]) ∧
    after pairSteps = after [.cell "item" "item", .define "item" (.span .digit),
      .name "pair" (.sequence [.reference "item", .char ",", .reference "item"])] ∧
    (after pairSteps).find "pair" = .ok pair ∧
    ∃ value rest, (after pairSteps).runPattern pair (View.of "12,3]") = .matched value rest ∧
      (after (pairSteps ++ [.define "item" .empty, .cell "item" "forward"])).runPattern pair
        (View.of "12,3]") = .matched value rest := by
  have found : (after pairSteps).findCell "item" = .ok (.made 0) := rfl
  have resolved : (after pairSteps).build .empty = .ok .empty := rfl
  obtain ⟨value, rest, parsed⟩ :
      ∃ value rest, (after pairSteps).runPattern pair (View.of "12,3]") = .matched value rest :=
    ⟨_, _, by cbv⟩
  refine ⟨?_, ?_, rfl, value, rest, parsed, ?_⟩
  · refine (cells_write_once pairSteps).define_again found resolved ?_ [.describe "item"]
    rintro id same
    cases same
    exact Option.some_ne_none _
  · refine ((cells_write_once [.cell "item" "item"]).exchange rfl rfl ?_ []).symm
    intro id built _ other asked
    cases asked
  · refine (cells_write_once pairSteps).run_kept ?_ (by simp) (by simp) parsed
    intro key relies
    cases (cells_write_once pairSteps).late_of_relies (rfl : (after pairSteps).find "pair" = _) relies

end Session

end Descent
