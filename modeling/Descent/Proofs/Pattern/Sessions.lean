import Descent.Pattern.Session
import Mathlib

/-!
What the steps of a session make of its cells and names. Definitions have no part in which cells
there are and what the names stand for, and of the definitions of one cell the first one counts.
-/

namespace Descent

theorem bind_eq_ok {α β : Type} {result : Except Fault α} {next : α → Except Fault β} {last : β} :
    result >>= next = .ok last ↔ ∃ value, result = .ok value ∧ next value = .ok last := by
  cases result with
  | ok value => exact ⟨fun final => ⟨value, rfl, final⟩, fun ⟨_, same, final⟩ => Except.ok.inj same ▸ final⟩
  | error cause => simp [bind, Except.bind]

namespace Pattern

variable {κ ι : Type} {scope : κ → Except Fault (Pattern ι)} {later : κ → ι}

theorem resolve_eq_reference {pattern : Pattern κ} {target : ι}
    (resolved : pattern.resolve scope later = .ok (.reference target)) :
    ∃ key, pattern = .reference key ∧ scope key = .ok (.reference target) := by
  cases pattern with
  | reference key => exact ⟨key, rfl, resolved⟩
  | _ =>
    simp only [resolve, bind, Except.bind, pure, Except.pure] at resolved
    repeat' split at resolved
    all_goals cases resolved

theorem cell?_eq_made {pattern : Pattern Reference} {id : CellId} :
    pattern.cell? = some (.made id) ↔ pattern = .reference (.cell id) := by
  constructor
  · intro made
    rw [cell?.eq_def] at made
    split at made <;> cases made
    rfl
  · rintro rfl
    rfl

end Pattern

namespace Cells

variable {cells next : Cells} {id : CellId} {pattern : Pattern Reference}

@[simp] theorem definition?_add (cells : Cells) (name : String) (id : CellId) :
    (cells.add name).1.definition? id = cells.definition? id := by
  rw [definition?, definition?, add, Array.getElem?_push]
  split
  · rename_i last
    subst last
    simp
  · rfl

theorem definition?_define (defined : cells.define id pattern = .ok next)
    (known : id < cells.all.size) (other : CellId) :
    next.definition? other = if other = id then some pattern else cells.definition? other := by
  rw [define] at defined
  split at defined
  · cases defined
  cases defined
  rw [definition?, definition?, Array.getElem?_modify]
  by_cases same : other = id
  · subst same
    simp [known]
  · rw [if_neg (Ne.symm same), if_neg same]

theorem meaning_eq_ok : cells.meaning id = .ok pattern ↔ cells.definition? id = some pattern := by
  rw [meaning]
  cases cells.definition? id <;> simp

theorem lt_size_of_meaning (meant : cells.meaning id = .ok pattern) : id < cells.all.size := by
  by_contra outside
  rw [meaning_eq_ok, definition?, Array.getElem?_eq_none (Nat.le_of_not_lt outside)] at meant
  cases meant

theorem define_of_undefined (undefined : cells.definition? id = .none) (pattern : Pattern Reference) :
    ∃ next, cells.define id pattern = .ok next := by
  rw [define, undefined]
  exact ⟨_, rfl⟩

theorem define_of_defined {earlier : Pattern Reference} (defined : cells.definition? id = some earlier)
    (pattern : Pattern Reference) : cells.define id pattern = .error (.redefinedCell (cells.name id)) := by
  rw [define, defined]

theorem names_define (defined : cells.define id pattern = .ok next) :
    next.all.map Cell.name = cells.all.map Cell.name := by
  rw [define] at defined
  split at defined
  · cases defined
  cases defined
  apply Array.ext_getElem?
  intro index
  rw [Array.getElem?_map, Array.getElem?_map, Array.getElem?_modify]
  split
  · cases cells.all[index]? <;> rfl
  · rfl

end Cells

def SessionStep.defines : SessionStep → Bool
  | define _ _ => true
  | _ => false

def SessionStep.gives? : SessionStep → Option String
  | cell key _ => some key
  | name key _ => some key
  | _ => none

namespace Session

/-- The definition of a cell that the step asks for, unless it fails before it gets there. -/
def asked? (session : Session) : SessionStep → Option (CellId × Pattern Reference)
  | .define key pattern =>
    match session.findCell key, session.build pattern with
    | .ok (.made id), .ok built => some (id, built)
    | _, _ => none
  | _ => none

def definitions (session : Session) : List SessionStep → List (CellId × Pattern Reference)
  | [] => []
  | step :: rest => (session.asked? step).toList ++ (session.step step).1.definitions rest

def after (steps : List SessionStep) : Session :=
  (start.run steps).1

def firstDefinition? (steps : List SessionStep) (id : CellId) : Option (Pattern Reference) :=
  (start.definitions steps).lookup id

def Known (session : Session) : Prop :=
  ∀ key id, session.find key = .ok (.reference (.cell id)) → id < session.cells.all.size

inductive Turns (session : Session) : SessionStep → Session → Prop
  | made (key name) : Turns session (.cell key name)
      ({ session with cells := (session.cells.add name).1 }.bindName key
        (.reference (.cell session.cells.all.size)))
  | named {key pattern built} : session.build pattern = .ok built →
      Turns session (.name key pattern) (session.bindName key built)
  | defined {step id built cells} : session.asked? step = some (id, built) →
      session.cells.define id built = .ok cells → Turns session step { session with cells }
  | refused {step id built cause} : session.asked? step = some (id, built) →
      session.cells.define id built = .error cause → Turns session step session
  | still {step} : session.asked? step = none → Turns session step session

variable {session next : Session} {step : SessionStep} {key : String} {id : CellId}
variable {pattern : Pattern String} {built : Pattern Reference}

theorem findCell_eq_made (found : session.findCell key = .ok (.made id)) :
    session.find key = .ok (.reference (.cell id)) := by
  obtain ⟨pattern, bound, isCell⟩ := bind_eq_ok.mp found
  split at isCell
  · rename_i cell known
    cases isCell
    rw [bound, Pattern.cell?_eq_made.mp known]
  · cases isCell

theorem find_bindName (session : Session) (key other : String) (built : Pattern Reference) :
    (session.bindName key built).find other = if other == key then .ok built else session.find other := by
  rw [find, find, bindName, List.lookup_cons]
  cases other == key <;> rfl

theorem find_bindName_of_ne {other : String} (apart : some other ≠ some key) :
    (session.bindName other built).find key = session.find key := by
  rw [find_bindName, if_neg]
  intro same
  exact apart (congrArg some (beq_iff_eq.mp same).symm)

theorem asked?_define :
    session.asked? (.define key pattern) = some (id, built) ↔
      session.findCell key = .ok (.made id) ∧ session.build pattern = .ok built := by
  constructor
  · intro asked
    rw [asked?] at asked
    split at asked
    · rename_i found resolved
      cases asked
      exact ⟨found, resolved⟩
    · cases asked
  · rintro ⟨found, resolved⟩
    rw [asked?, found, resolved]

theorem step_of_asked (asked : session.asked? (.define key pattern) = some (id, built)) :
    session.step (.define key pattern) =
      match session.cells.define id built with
      | .ok cells => ({ session with cells }, .done)
      | .error cause => (session, .refused cause) := by
  obtain ⟨found, resolved⟩ := asked?_define.mp asked
  rw [Session.step, attempt, found, resolved]
  simp only [bind, Except.bind, defineCell]
  cases session.cells.define id built <;> rfl

theorem turns (session : Session) (step : SessionStep) : session.Turns step (session.step step).1 := by
  cases step with
  | cell key name => exact .made key name
  | define key pattern =>
    cases asked : session.asked? (.define key pattern) with
    | some definition =>
      obtain ⟨id, built⟩ := definition
      rw [step_of_asked asked]
      cases result : session.cells.define id built with
      | ok cells => exact .defined asked result
      | error cause => exact .refused asked result
    | none =>
      have same : (session.step (.define key pattern)).1 = session := by
        rw [Session.step, attempt]
        rw [asked?] at asked
        cases found : session.findCell key with
        | error cause => rfl
        | ok cell =>
          cases resolved : session.build pattern with
          | error cause => rfl
          | ok built =>
            cases cell with
            | made id =>
              rw [found, resolved] at asked
              cases asked
            | jsonValue => rfl
      rw [same]
      exact .still asked
  | name key pattern =>
    cases resolved : session.build pattern with
    | ok built =>
      rw [Session.step, attempt, resolved]
      exact .named resolved
    | error cause =>
      rw [Session.step, attempt, resolved]
      exact .still rfl
  | describe key =>
    rw [Session.step, attempt]
    cases session.findCell key <;> exact .still rfl
  | run key view =>
    rw [Session.step, attempt]
    cases session.find key <;> exact .still rfl

theorem Turns.known (turns : session.Turns step next) (known : session.Known) : next.Known := by
  cases turns with
  | made key name =>
    intro other id found
    rw [find_bindName] at found
    have grown : id < session.cells.all.size + 1 := by
      split at found
      · cases found
        exact Nat.lt_succ_self _
      · exact Nat.lt_succ_of_lt (known other id found)
    simpa [bindName, Cells.add] using grown
  | named resolved =>
    intro other id found
    rw [find_bindName] at found
    split at found
    · cases found
      obtain ⟨earlier, _, found⟩ := Pattern.resolve_eq_reference resolved
      exact known earlier id found
    · exact known other id found
  | defined asked result =>
    have sizes := congrArg Array.size (Cells.names_define result)
    rw [Array.size_map, Array.size_map] at sizes
    intro other id found
    exact sizes ▸ known other id found
  | refused => exact known
  | still => exact known

theorem known_of_asked (known : session.Known) (asked : session.asked? step = some (id, built)) :
    id < session.cells.all.size := by
  cases step with
  | define key pattern => exact known key id (findCell_eq_made (asked?_define.mp asked).1)
  | _ => cases asked

theorem Turns.definition?_eq (turns : session.Turns step next) (known : session.Known) (id : CellId) :
    next.cells.definition? id =
      (session.cells.definition? id).or ((session.asked? step).toList.lookup id) := by
  cases turns with
  | made key name => simp [bindName, asked?]
  | named => simp [bindName, asked?]
  | defined asked result =>
    rename_i own built cells
    rw [asked, Cells.definition?_define result (known_of_asked known asked), Option.toList_some,
      List.lookup_cons, List.lookup_nil]
    by_cases same : id = own
    · subst same
      cases undefined : session.cells.definition? id with
      | none => simp
      | some earlier =>
        rw [Cells.define_of_defined undefined] at result
        cases result
    · rw [if_neg same, beq_false_of_ne same, Option.or_none]
  | refused asked result =>
    rename_i own built cause
    rw [asked, Option.toList_some, List.lookup_cons, List.lookup_nil]
    by_cases same : id = own
    · subst same
      cases defined : session.cells.definition? id with
      | some earlier => rfl
      | none =>
        obtain ⟨next, succeeded⟩ := Cells.define_of_undefined defined built
        rw [succeeded] at result
        cases result
    · rw [beq_false_of_ne same, Option.or_none]
  | still asked => simp [asked]

theorem Turns.find_eq (turns : session.Turns step next) (key : String) (apart : step.gives? ≠ some key) :
    next.find key = session.find key := by
  cases turns with
  | made => exact find_bindName_of_ne apart
  | named => exact find_bindName_of_ne apart
  | defined => rfl
  | refused => rfl
  | still => rfl

theorem defines_of_asked (asked : session.asked? step = some (id, built)) : step.defines = true := by
  cases step with
  | define => rfl
  | _ => cases asked

theorem Turns.eq_of_idle (turns : session.Turns step next) (nameless : step.gives? = none)
    (others : step.defines = false) : next = session := by
  cases turns with
  | made => cases nameless
  | named => cases nameless
  | defined asked => exact absurd (defines_of_asked asked) (by simp [others])
  | refused => rfl
  | still => rfl

section Runs

variable (steps : List SessionStep)

theorem run_cons (session : Session) (step : SessionStep) (rest : List SessionStep) :
    session.run (step :: rest) =
      (((session.step step).1.run rest).1, (session.step step).2 :: ((session.step step).1.run rest).2) :=
  rfl

theorem run_append (session : Session) (steps later : List SessionStep) :
    (session.run (steps ++ later)).1 = ((session.run steps).1.run later).1 := by
  induction steps generalizing session with
  | nil => rfl
  | cons step rest ih =>
    rw [List.cons_append, run_cons, run_cons]
    exact ih _

theorem after_append (later : List SessionStep) :
    after (steps ++ later) = ((after steps).run later).1 :=
  run_append start steps later

theorem Known.run (known : session.Known) (steps : List SessionStep) : (session.run steps).1.Known := by
  induction steps generalizing session with
  | nil => exact known
  | cons step rest ih => exact ih ((session.turns step).known known)

theorem definition?_run (known : session.Known) (steps : List SessionStep) (id : CellId) :
    (session.run steps).1.cells.definition? id =
      (session.cells.definition? id).or ((session.definitions steps).lookup id) := by
  induction steps generalizing session with
  | nil => exact (Option.or_none).symm
  | cons step rest ih =>
    have turns := session.turns step
    rw [run_cons, definitions, List.lookup_append, ← Option.or_assoc, ← turns.definition?_eq known]
    exact ih (turns.known known)

theorem find_run (session : Session) (steps : List SessionStep) (key : String)
    (apart : ∀ step ∈ steps, step.gives? ≠ some key) :
    (session.run steps).1.find key = session.find key := by
  induction steps generalizing session with
  | nil => rfl
  | cons step rest ih =>
    obtain ⟨here, others⟩ := List.forall_mem_cons.mp apart
    rw [run_cons]
    exact (ih _ others).trans ((session.turns step).find_eq key here)

theorem start_known : start.Known := by
  intro key id found
  cases found

theorem known_after : (after steps).Known :=
  start_known.run steps

theorem definition?_after (id : CellId) :
    (after steps).cells.definition? id = firstDefinition? steps id :=
  definition?_run start_known steps id

end Runs

structure SameNames (first second : Session) : Prop where
  scope : first.scope = second.scope
  cells : first.cells.all.map Cell.name = second.cells.all.map Cell.name

namespace SameNames

variable {first middle second : Session}

theorem refl (session : Session) : session.SameNames session :=
  ⟨rfl, rfl⟩

theorem symm (same : first.SameNames second) : second.SameNames first :=
  ⟨same.scope.symm, same.cells.symm⟩

theorem trans (same : first.SameNames middle) (others : middle.SameNames second) :
    first.SameNames second :=
  ⟨same.scope.trans others.scope, same.cells.trans others.cells⟩

theorem find_eq (same : first.SameNames second) : first.find = second.find := by
  funext key
  rw [find, find, same.scope]

theorem build_eq (same : first.SameNames second) : first.build = second.build := by
  funext pattern
  rw [build, build, same.find_eq]

theorem asked?_eq (same : first.SameNames second) (step : SessionStep) :
    first.asked? step = second.asked? step := by
  cases step with
  | define key pattern =>
    rw [asked?, asked?, findCell, findCell, same.find_eq, same.build_eq]
  | _ => rfl

theorem size_eq (same : first.SameNames second) : first.cells.all.size = second.cells.all.size := by
  have sizes := congrArg Array.size same.cells
  rwa [Array.size_map, Array.size_map] at sizes

theorem of_defines (turns : session.Turns step next) (defines : step.defines = true) :
    next.SameNames session := by
  cases turns with
  | made => cases defines
  | named => cases defines
  | defined asked result => exact ⟨rfl, Cells.names_define result⟩
  | refused => exact .refl _
  | still => exact .refl _

theorem bindName (same : first.SameNames second) (key : String) (built : Pattern Reference) :
    (first.bindName key built).SameNames (second.bindName key built) :=
  ⟨congrArg (List.cons (key, built)) same.scope, same.cells⟩

theorem after_step (same : first.SameNames second) (others : step.defines = false) :
    (first.step step).1.SameNames (second.step step).1 := by
  cases step with
  | cell key name =>
    have added : Session.SameNames { first with cells := (first.cells.add name).1 }
        { second with cells := (second.cells.add name).1 } := by
      refine ⟨same.scope, ?_⟩
      simp only [Cells.add, Array.map_push, same.cells]
    have bound := added.bindName key (.reference (.cell first.cells.all.size))
    rw [Session.step, attempt, Session.step, attempt]
    simp only [Cells.add] at bound ⊢
    rwa [← same.size_eq]
  | define key pattern => cases others
  | name key pattern =>
    rw [Session.step, attempt, Session.step, attempt, same.build_eq]
    cases second.build pattern with
    | ok built => exact same.bindName key built
    | error cause => exact same
  | describe key =>
    rw [(first.turns _).eq_of_idle rfl rfl, (second.turns _).eq_of_idle rfl rfl]
    exact same
  | run key view =>
    rw [(first.turns _).eq_of_idle rfl rfl, (second.turns _).eq_of_idle rfl rfl]
    exact same

theorem run_filter (same : first.SameNames second) (steps : List SessionStep) :
    (first.run steps).1.SameNames (second.run (steps.filter fun step => !step.defines)).1 := by
  induction steps generalizing first second with
  | nil => exact same
  | cons step rest ih =>
    cases defines : step.defines with
    | true =>
      rw [List.filter_cons_of_neg (by simp [defines])]
      exact ih ((of_defines (first.turns step) defines).trans same)
    | false =>
      rw [List.filter_cons_of_pos (by simp [defines])]
      exact ih (same.after_step defines)

theorem eq_of_definitions (same : first.SameNames second)
    (definitions : ∀ id, first.cells.definition? id = second.cells.definition? id) : first = second := by
  have cells : first.cells.all = second.cells.all := by
    refine Array.ext same.size_eq fun index inside insideToo => ?_
    have definition := definitions index
    rw [Cells.definition?, Cells.definition?, Array.getElem?_eq_getElem inside, Array.getElem?_eq_getElem insideToo] at definition
    have name : (first.cells.all.map Cell.name)[index]? = (second.cells.all.map Cell.name)[index]? := by
      rw [same.cells]
    rw [Array.getElem?_map, Array.getElem?_map, Array.getElem?_eq_getElem inside, Array.getElem?_eq_getElem insideToo] at name
    generalize first.cells.all[index] = one at name definition
    generalize second.cells.all[index] = other at name definition
    cases one
    cases other
    simp_all
  obtain ⟨⟨all⟩, scope⟩ := first
  obtain ⟨⟨others⟩, scopeToo⟩ := second
  cases same.scope
  cases cells
  rfl

end SameNames

theorem sameNames_after {steps others : List SessionStep}
    (rest : steps.filter (fun step => !step.defines) = others.filter fun step => !step.defines) :
    (after steps).SameNames (after others) :=
  ((SameNames.refl start).run_filter steps).trans
    (rest ▸ ((SameNames.refl start).run_filter others).symm)

end Session

end Descent
