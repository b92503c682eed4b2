import Descent.Proofs.Parser.Equations

/-!
What a run leaves and holds. A match leaves a later part of the view, and the views in its value lie
before that part. Along with this the rules carry a condition on the views that a parser is run on,
and say which endings other than a match or none are possible.
-/

namespace Descent

variable {α β γ ι : Type}

namespace View

structure Between (first last found : View) : Prop where
  buffer : found.buffer = first.buffer
  begins : first.offset ≤ found.offset
  ends : found.offset + found.length ≤ last.offset

variable {view rest found : View}

theorem Between.from_earlier {earlier : View} (between : view.Between rest found)
    (reaches : earlier.Reaches view) : earlier.Between rest found := by
  have begins := reaches.offset_le
  obtain ⟨word, split⟩ := reaches
  exact ⟨between.buffer.trans split.buffer, Nat.le_trans begins between.begins, between.ends⟩

theorem Between.up_to_later {later : View} (between : view.Between rest found)
    (reaches : rest.Reaches later) : view.Between later found :=
  ⟨between.buffer, between.begins, Nat.le_trans between.ends reaches.offset_le⟩

theorem between_span (view : View) (test : Char → Bool) :
    view.Between (view.span test).2 (view.span test).1 := by
  have ends := (view.span test).1.offset_add_length
  exact ⟨rfl, Nat.le_refl _, Nat.le_of_eq ends⟩

end View

/-- What a run may do besides its task: the endings that are allowed to it, and the views that its
values may hold though they are no part of what it reads. -/
structure Allowance where
  ending : Option Fault → Prop
  view : View → Prop

variable {allowed : Allowance} {before middle after ready : View → Prop}
variable {held : α → List View} {held' : β → List View} {held'' : γ → List View}

inductive Yields (allowed : Allowance) (sources : List View) (held : α → List View) :
    Except Fault α → Prop
  | ok {value} : (∀ found ∈ held value, found ∈ sources ∨ allowed.view found) →
      Yields allowed sources held (.ok value)
  | error {cause} : allowed.ending (some cause) → Yields allowed sources held (.error cause)

theorem Yields.of_subset {sources : List View} {value : α} (subset : held value ⊆ sources) :
    Yields allowed sources held (.ok value) :=
  .ok fun _ member => .inl (subset member)

def holdsNone : α → List View :=
  fun _ => []

theorem flatMap_holdsNone :
    (fun values : List α => values.flatMap (holdsNone : α → List View)) = holdsNone := by
  funext values
  simp [holdsNone]

theorem Yields.none {sources : List View} {value : α} :
    Yields allowed sources holdsNone (.ok value) :=
  .of_subset (List.nil_subset sources)

def Allowance.Holds (allowed : Allowance) (start rest : View) (views : List View) : Prop :=
  ∀ found ∈ views, start.Between rest found ∨ allowed.view found

inductive Reply.Stays (allowed : Allowance) (start : View) (after : View → Prop)
    (held : α → List View) : Reply α → Prop
  | matched {value rest} (reaches : start.Reaches rest) (left : after rest)
      (inside : allowed.Holds start rest (held value)) : Stays allowed start after held (.matched value rest)
  | noMatch : Stays allowed start after held .noMatch
  | fault {cause} : allowed.ending (some cause) → Stays allowed start after held (.fault cause)
  | exhausted : allowed.ending none → Stays allowed start after held .exhausted

/-- From a view that meets the first condition the run stays within the view, and what a match
leaves meets the second condition. -/
def Parser.Stays (allowed : Allowance) (before after : View → Prop) (held : α → List View)
    (parser : Parser α) : Prop :=
  ∀ view, before view → (parser view).Stays allowed view after held

def Parser.Gives (parser : Parser α) (value : α) : Prop :=
  ∃ view rest, parser view = .matched value rest

section Replies

variable {start point rest : View} {sources : List View}

theorem Allowance.Holds.nil : allowed.Holds start rest [] :=
  fun _ member => absurd member List.not_mem_nil

theorem Allowance.Holds.append {views others : List View} (holds : allowed.Holds start point views)
    (follow : allowed.Holds point rest others) (reaches : start.Reaches point)
    (reachesOn : point.Reaches rest) : allowed.Holds start rest (views ++ others) := by
  intro found member
  rcases List.mem_append.mp member with first | second
  · exact (holds found first).imp_left fun between => between.up_to_later reachesOn
  · exact (follow found second).imp_left fun between => between.from_earlier reaches

theorem Reply.Stays.bind {reply : Reply α} {next : α → View → Reply β}
    (stays : reply.Stays allowed start middle held)
    (step : ∀ value rest, reply = .matched value rest → start.Reaches rest → middle rest →
      allowed.Holds start rest (held value) → (next value rest).Stays allowed point after held') :
    (reply.bind next).Stays allowed point after held' := by
  cases stays with
  | matched reaches left inside => exact step _ _ rfl reaches left inside
  | noMatch => exact .noMatch
  | fault possible => exact .fault possible
  | exhausted possible => exact .exhausted possible

theorem Reply.Stays.leaving {reply : Reply α} {after' : View → Prop}
    (stays : reply.Stays allowed start after held)
    (left : ∀ rest, start.Reaches rest → after rest → after' rest) :
    reply.Stays allowed start after' held := by
  cases stays with
  | matched reaches meets inside => exact .matched reaches (left _ reaches meets) inside
  | noMatch => exact .noMatch
  | fault possible => exact .fault possible
  | exhausted possible => exact .exhausted possible

theorem Reply.Stays.deliver {result : Except Fault α} (reaches : start.Reaches rest)
    (left : after rest) (inside : allowed.Holds start rest sources)
    (yields : Yields allowed sources held result) :
    (deliver result rest).Stays allowed start after held := by
  cases yields with
  | ok subset =>
    refine .matched reaches left fun found member => ?_
    rcases subset found member with source | own
    · exact inside found source
    · exact .inr own
  | error possible => exact .fault possible

end Replies

namespace Parser.Stays

theorem just {value : α} (own : ∀ found ∈ held value, allowed.view found) :
    (just value).Stays allowed ready ready held := by
  intro view start
  exact .matched (.refl view) start fun found member => .inr (own found member)

theorem empty : (empty : Parser α).Stays allowed before after held :=
  fun _ _ => .noMatch

theorem imp {parser : Parser α} {before' after' : View → Prop}
    (stays : parser.Stays allowed before after held) (less : ∀ view, before' view → before view)
    (more : ∀ view, after view → after' view) : parser.Stays allowed before' after' held := by
  intro view start
  exact (stays view (less view start)).leaving fun rest _ => more rest

theorem leaving {parser : Parser α} {after' : View → Prop}
    (stays : parser.Stays allowed before after held)
    (leaves : ∀ view value rest, before view → parser view = .matched value rest → after' rest) :
    parser.Stays allowed before after' held := by
  intro view start
  have replies := stays view start
  generalize parsed : parser view = reply at replies
  cases replies with
  | matched reaches _ inside => exact .matched reaches (leaves view _ _ start parsed) inside
  | noMatch => exact .noMatch
  | fault possible => exact .fault possible
  | exhausted possible => exact .exhausted possible

theorem map {parser : Parser α} {f : α → Except Fault β}
    (stays : parser.Stays allowed before after held)
    (yields : ∀ value, parser.Gives value → Yields allowed (held value) held' (f value)) :
    (parser.map f).Stays allowed before after held' := by
  intro view start
  rw [map_apply]
  refine (stays view start).bind fun value rest parsed reaches left inside => ?_
  exact .deliver reaches left inside (yields value ⟨view, rest, parsed⟩)

theorem always {parser : Parser α} {value : β} (stays : parser.Stays allowed before after held)
    (own : ∀ found ∈ held' value, allowed.view found) :
    (parser.always value).Stays allowed before after held' :=
  stays.map fun _ _ => .ok fun found member => .inr (own found member)

theorem lift2 {first : Parser α} {second : Parser β} {f : α → β → Except Fault γ}
    (firsts : first.Stays allowed before middle held)
    (seconds : second.Stays allowed middle after held')
    (yields : ∀ left right, first.Gives left → second.Gives right →
      Yields allowed (held left ++ held' right) held'' (f left right)) :
    (lift2 f first second).Stays allowed before after held'' := by
  intro view start
  rw [lift2_apply]
  refine (firsts view start).bind fun left point parsed reaches between inside => ?_
  refine (seconds point between).bind fun right rest read follows last insideToo => ?_
  refine .deliver (reaches.trans follows) last ?_ (yields _ _ ⟨_, _, parsed⟩ ⟨_, _, read⟩)
  exact inside.append insideToo reaches follows

theorem andThen {first : Parser α} {second : Parser β}
    (firsts : first.Stays allowed before middle held)
    (seconds : second.Stays allowed middle after held') :
    (first.andThen second).Stays allowed before after held' :=
  firsts.lift2 seconds fun _ _ _ _ => .of_subset (List.subset_append_right _ _)

theorem skip {first : Parser α} {second : Parser β}
    (firsts : first.Stays allowed before middle held)
    (seconds : second.Stays allowed middle after held') :
    (first.skip second).Stays allowed before after held :=
  firsts.lift2 seconds fun _ _ _ _ => .of_subset (List.subset_append_left _ _)

theorem alt {first second : Parser α} (firsts : first.Stays allowed before after held)
    (seconds : second.Stays allowed before after held) :
    (first.alt second).Stays allowed before after held := by
  intro view start
  have stays := firsts view start
  rw [Parser.alt]
  generalize first view = reply at stays
  cases stays with
  | matched reaches left inside => exact .matched reaches left inside
  | noMatch => exact seconds view start
  | fault possible => exact .fault possible
  | exhausted possible => exact .exhausted possible

theorem guard {parser : Parser α} {test : α → Except Fault Bool}
    (stays : parser.Stays allowed before after held)
    (yields : ∀ value, parser.Gives value → Yields allowed [] holdsNone (test value)) :
    (parser.guard test).Stays allowed before after held := by
  intro view start
  rw [guard_apply]
  refine (stays view start).bind fun value rest parsed reaches left inside => ?_
  have tested := yields value ⟨view, rest, parsed⟩
  generalize test value = result at tested
  cases tested with
  | ok =>
    split
    · exact .matched reaches left inside
    · exact .noMatch
    · contradiction
  | error possible => exact .fault possible

theorem satisfy {test : Char → Bool}
    (step : ∀ {view rest char}, view.Splits [char] rest → test char = true → before view → after rest) :
    (satisfy test).Stays allowed before after holdsNone := by
  intro view start
  rw [satisfy_apply]
  split
  · exact .noMatch
  · rename_i char more shown
    have split := (View.splits_drop [char] shown).1
    split
    · rename_i passes
      exact .matched split.reaches (step split passes start) .nil
    · exact .noMatch

theorem char {expected : Char}
    (step : ∀ {view rest}, view.Splits [expected] rest → before view → after rest) :
    (char expected).Stays allowed before after holdsNone := by
  refine satisfy fun split same start => step ?_ start
  rwa [← eq_of_beq same]

theorem literal {text : String}
    (step : ∀ {view rest}, view.Splits text.toList rest → before view → after rest) :
    (literal text).Stays allowed before after holdsNone := by
  intro view start
  rw [literal_apply]
  split
  · rename_i starts
    obtain ⟨more, shown⟩ := starts
    have split := (View.splits_drop text.toList shown.symm).1
    rw [String.length_toList] at split
    exact .matched split.reaches (step split start) .nil
  · exact .noMatch

section

variable (lasting : View.Lasting ready)
include lasting

theorem span (test : Char → Bool) : (span test).Stays allowed ready ready fun found => [found] := by
  intro view start
  have reaches := (view.splits_span test).reaches
  refine .matched reaches (lasting reaches start) fun found member => .inl ?_
  rw [List.mem_singleton.mp member]
  exact view.between_span test

theorem maybe (expected : Char) : (maybe expected).Stays allowed ready ready holdsNone := by
  refine .alt (.map (.char fun split => lasting split.reaches) fun _ _ => .none) (.just ?_)
  exact fun _ member => absurd member List.not_mem_nil

end

theorem sequence {parsers : List (Parser α)}
    (each : ∀ parser ∈ parsers, parser.Stays allowed ready ready held) :
    (sequence parsers).Stays allowed ready ready fun values => values.flatMap held := by
  induction parsers with
  | nil => exact just (by simp)
  | cons parser parsers ih =>
    intro view start
    rw [sequence_cons]
    obtain ⟨first, others⟩ := List.forall_mem_cons.mp each
    refine (first view start).bind fun value point _ reaches between inside => ?_
    refine (ih others point between).bind fun values rest _ follows last insideToo => ?_
    exact .matched (reaches.trans follows) last (inside.append insideToo reaches follows)

theorem many {element : Parser α} (stays : element.Stays allowed ready ready held) :
    (many element).Stays allowed ready ready fun values => values.flatMap held := by
  intro view start
  -- Only the number of repetitions is open, and each of them shortens the view.
  induction length : view.length using Nat.strongRecOn generalizing view with
  | ind count ih =>
    have first := stays view start
    rw [many_apply]
    generalize element view = reply at first
    have nothing : Reply.Stays allowed view ready (fun values => values.flatMap held)
        (.matched ([] : List α) view) := .matched (.refl view) start .nil
    cases first with
    | matched reaches left inside =>
      dsimp only
      split
      · rename_i value point shorter
        refine (ih _ (length ▸ shorter) point left rfl).bind
          fun values rest _ follows last insideToo => ?_
        exact .matched (reaches.trans follows) last (inside.append insideToo reaches follows)
      · exact nothing
    | noMatch => exact nothing
    | fault possible => exact .fault possible
    | exhausted possible => exact .exhausted possible

/-- The first element is met where the whole is, and everything else only behind it. -/
theorem sepBy_behind {separator : Parser β} {element : Parser α}
    (first : element.Stays allowed ready middle held)
    (separators : separator.Stays allowed middle middle held')
    (elements : element.Stays allowed middle middle held) (weaken : ∀ view, middle view → ready view) :
    (sepBy separator element).Stays allowed ready ready fun values => values.flatMap held := by
  have some : (Parser.lift2 (fun first others => .ok (first :: others)) element
      (Parser.many (separator.andThen element))).Stays allowed ready middle
        fun values => values.flatMap held :=
    lift2 first (many (separators.andThen elements)) fun _ _ _ _ => .of_subset (List.Subset.refl _)
  exact alt (some.imp (fun _ => id) weaken) (just (by simp))

theorem sepBy {separator : Parser β} {element : Parser α}
    (separators : separator.Stays allowed ready ready held')
    (elements : element.Stays allowed ready ready held) :
    (sepBy separator element).Stays allowed ready ready fun values => values.flatMap held :=
  sepBy_behind elements separators elements fun _ => id

end Parser.Stays

end Descent
