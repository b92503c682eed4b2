import Descent.Proofs.Pattern.Containment
import Mathlib

/-!
Where faults come from. A run comes to other runs, of the parts of its pattern on what is left of
its view. If none of them gives a function a value that it does not take, the run ends without a
fault: nothing else in a grammar can raise one, as long as the references entered stand for patterns.
-/

namespace Descent

namespace Meanings

variable {κ : Type}

open Pattern (Pairs Atomic)

inductive Begins (meanings : Meanings κ) : Pattern κ → View → Pattern κ → View → Prop
  | map {transform pattern view} : Begins meanings (.map transform pattern) view pattern view
  | always {value pattern view} : Begins meanings (.always value pattern) view pattern view
  | guard {check pattern view} : Begins meanings (.guard check pattern) view pattern view
  | first {pattern join first second view} : Pairs pattern join first second →
      Begins meanings pattern view first view
  | second {pattern join first second view value rest} : Pairs pattern join first second →
      meanings.Ends first view (.matched value rest) → Begins meanings pattern view second rest
  | alt {first second view} : Begins meanings (.alt first second) view first view
  | otherwise {first second view} : meanings.Ends first view .noMatch →
      Begins meanings (.alt first second) view second view
  | many {element view} : Begins meanings (.many element) view element view
  | again {element view value rest} : meanings.Ends element view (.matched value rest) →
      rest.length < view.length → Begins meanings (.many element) view (.many element) rest
  | sepBy {separator element view} : Begins meanings (.sepBy separator element) view element view
  | others {separator element view value rest} : meanings.Ends element view (.matched value rest) →
      Begins meanings (.sepBy separator element) view (.many (.andThen separator element)) rest
  | reference {target definition view} : meanings target = .ok definition →
      Begins meanings (.reference target) view definition view

inductive ComesTo (meanings : Meanings κ) : Pattern κ → View → Pattern κ → View → Prop
  | here {pattern view} : ComesTo meanings pattern view pattern view
  | through {pattern view part point last place} : meanings.Begins pattern view part point →
      ComesTo meanings part point last place → ComesTo meanings pattern view last place

/-- The run itself gives a function a value that it does not take. A value that is no function
takes nothing. -/
inductive Raises (meanings : Meanings κ) : Pattern κ → View → Prop
  | map {transform pattern view value rest cause} : meanings.Ends pattern view (.matched value rest) →
      transform.apply value = .error cause → Raises meanings (.map transform pattern) view
  | guard {check pattern view value rest cause} : meanings.Ends pattern view (.matched value rest) →
      check.holds value = .error cause → Raises meanings (.guard check pattern) view
  | pair {pattern join first second view left middle right rest cause} :
      Pairs pattern join first second → meanings.Ends first view (.matched left middle) →
      meanings.Ends second middle (.matched right rest) → join left right = .error cause →
      Raises meanings pattern view

def Calm (meanings : Meanings κ) (pattern : Pattern κ) (view : View) : Prop :=
  ∀ part point, meanings.ComesTo pattern view part point → ¬meanings.Raises part point

structure Smooth (meanings : Meanings κ) (pattern : Pattern κ) (view : View) : Prop where
  calm : meanings.Calm pattern view
  defined : ∀ target point, meanings.ComesTo pattern view (.reference target) point →
    ∃ definition, meanings target = .ok definition

variable {meanings : Meanings κ} {pattern part first second element : Pattern κ} {view point rest : View}
variable {value : Value} {cause : Fault} {fuel : Nat}

theorem Calm.quiet (calm : meanings.Calm pattern view) : ¬meanings.Raises pattern view :=
  calm pattern view .here

theorem Smooth.begun (smooth : meanings.Smooth pattern view)
    (begins : meanings.Begins pattern view part point) : meanings.Smooth part point where
  calm := fun last place comes => smooth.calm last place (.through begins comes)
  defined := fun target place comes => smooth.defined target place (.through begins comes)

def FaultFree (meanings : Meanings κ) (fuel : Nat) (pattern : Pattern κ) : Prop :=
  ∀ view cause, meanings.Smooth pattern view → pattern.eval (meanings.enter fuel) view ≠ .fault cause

theorem faultFree_of_atomic (atomic : Atomic pattern) : meanings.FaultFree fuel pattern := by
  intro view cause _ faulted
  let allowed : Allowance := ⟨fun _ => False, fun _ => True⟩
  have stays : (pattern.eval (meanings.enter fuel)).Stays allowed _ _ Value.views :=
    atomic.eval_stays View.lasting_true fun _ _ => trivial
  have quiet := stays view trivial
  rw [faulted] at quiet
  cases quiet with
  | fault impossible => exact impossible

theorem faultFree_of_pairs {join : Value → Value → Except Fault Value} (pairs : Pairs pattern join first second)
    (firsts : meanings.FaultFree fuel first) (seconds : meanings.FaultFree fuel second) :
    meanings.FaultFree fuel pattern := by
  intro view cause smooth faulted
  rw [pairs.eval_eq, Parser.lift2_apply, Reply.bind_eq_fault] at faulted
  rcases faulted with faulted | ⟨left, middle, parsed, faulted⟩
  · exact firsts view cause (smooth.begun (.first pairs)) faulted
  have leftEnds := ends_of_matched parsed
  rcases Reply.bind_eq_fault.mp faulted with faulted | ⟨right, rest, read, faulted⟩
  · exact seconds middle cause (smooth.begun (.second pairs leftEnds)) faulted
  · exact smooth.calm.quiet (.pair pairs leftEnds (ends_of_matched read) (Reply.deliver_eq_fault.mp faulted))

theorem many_ne_fault (elements : meanings.FaultFree fuel element) (smooth : meanings.Smooth (.many element) view) :
    Parser.many (element.eval (meanings.enter fuel)) view ≠ .fault cause := by
  induction length : view.length using Nat.strongRecOn generalizing view with
  | ind count ih =>
    intro faulted
    rw [Parser.many_apply] at faulted
    split at faulted
    · rename_i value rest parsed
      split at faulted
      · rename_i shorter
        rcases Reply.bind_eq_fault.mp faulted with faulted | ⟨_, _, _, faulted⟩
        · have later := smooth.begun (.again (ends_of_matched parsed) shorter)
          exact ih _ (length ▸ shorter) later rfl faulted
        · cases faulted
      · cases faulted
    · cases faulted
    · rename_i raised
      exact elements view _ (smooth.begun .many) raised
    · cases faulted

theorem eval_faultFree (entries : ∀ target, meanings.FaultFree fuel (.reference target)) (pattern : Pattern κ) :
    meanings.FaultFree fuel pattern := by
  induction pattern using Pattern.induct_pairs with
  | atomic pattern atomic => exact faultFree_of_atomic atomic
  | map transform pattern ih =>
    intro view cause smooth faulted
    rcases Reply.bind_eq_fault.mp faulted with faulted | ⟨value, rest, parsed, faulted⟩
    · exact ih view cause (smooth.begun .map) faulted
    · exact smooth.calm.quiet (.map (ends_of_matched parsed) (Reply.deliver_eq_fault.mp faulted))
  | always value pattern ih =>
    intro view cause smooth faulted
    rcases Reply.bind_eq_fault.mp faulted with faulted | ⟨_, _, _, faulted⟩
    · exact ih view cause (smooth.begun .always) faulted
    · cases faulted
  | guard check pattern ih =>
    intro view cause smooth faulted
    rcases Reply.bind_eq_fault.mp faulted with faulted | ⟨value, rest, parsed, faulted⟩
    · exact ih view cause (smooth.begun .guard) faulted
    · split at faulted
      · cases faulted
      · cases faulted
      · rename_i raised
        exact smooth.calm.quiet (.guard (ends_of_matched parsed) raised)
  | pair pattern join first second pairs firsts seconds => exact faultFree_of_pairs pairs firsts seconds
  | alt first second firsts seconds =>
    intro view cause smooth faulted
    rw [Pattern.eval, Parser.alt] at faulted
    split at faulted
    · rename_i refused
      exact seconds view cause (smooth.begun (.otherwise (ends_of_noMatch refused))) faulted
    · exact firsts view cause (smooth.begun .alt) faulted
  | many element ih =>
    intro view cause smooth faulted
    rcases Reply.bind_eq_fault.mp faulted with faulted | ⟨_, _, _, faulted⟩
    · exact many_ne_fault ih smooth faulted
    · cases faulted
  | sepBy separator element separators elements =>
    intro view cause smooth faulted
    rcases Reply.bind_eq_fault.mp faulted with faulted | ⟨_, _, _, faulted⟩
    · rw [Parser.sepBy, Parser.alt] at faulted
      split at faulted
      · cases faulted
      rw [Parser.lift2_apply] at faulted
      rcases Reply.bind_eq_fault.mp faulted with faulted | ⟨first, middle, parsed, faulted⟩
      · exact elements view cause (smooth.begun .sepBy) faulted
      rcases Reply.bind_eq_fault.mp faulted with faulted | ⟨_, _, _, faulted⟩
      · have behind := faultFree_of_pairs (.andThen separator element) separators elements
        exact many_ne_fault behind (smooth.begun (.others (ends_of_matched parsed))) faulted
      · cases faulted
    · cases faulted
  | reference target => exact entries target

theorem reference_faultFree (fuel : Nat) (target : κ) : meanings.FaultFree fuel (.reference target) := by
  induction fuel generalizing target with
  | zero =>
    intro view cause _ faulted
    cases faulted
  | succ fuel ih =>
    intro view cause smooth faulted
    obtain ⟨definition, meant⟩ := smooth.defined target view .here
    rw [Pattern.eval, enter, meant] at faulted
    exact eval_faultFree ih definition view cause (smooth.begun (.reference meant)) faulted

end Meanings

namespace Pattern

variable {κ : Type} {meanings : Meanings κ} {pattern part first second : Pattern κ} {view point : View}
variable {join : Value → Value → Except Fault Value}

mutual

def Bare : Pattern κ → Prop
  | map _ _ => False
  | guard _ _ => False
  | ap _ _ => False
  | lazyAp _ _ => False
  | lift2 _ _ _ => False
  | always _ pattern => pattern.Bare
  | andThen first second => first.Bare ∧ second.Bare
  | skip first second => first.Bare ∧ second.Bare
  | alt first second => first.Bare ∧ second.Bare
  | sequence patterns => BareAll patterns
  | many element => element.Bare
  | sepBy separator element => separator.Bare ∧ element.Bare
  | _ => True

def BareAll : List (Pattern κ) → Prop
  | [] => True
  | pattern :: rest => pattern.Bare ∧ BareAll rest

end

theorem Pairs.bare (pairs : Pairs pattern join first second) (bare : pattern.Bare) :
    first.Bare ∧ second.Bare := by
  cases pairs with
  | ap => exact bare.elim
  | lazyAp => exact bare.elim
  | lift2 => exact bare.elim
  | andThen => exact bare
  | skip => exact bare
  | sequence => exact bare

theorem Bare.begun (bare : pattern.Bare)
    (definitions : ∀ target definition, meanings target = .ok definition → definition.Bare)
    (begins : meanings.Begins pattern view part point) : part.Bare := by
  cases begins with
  | map => exact bare.elim
  | guard => exact bare.elim
  | always => exact bare
  | first pairs => exact (pairs.bare bare).1
  | second pairs => exact (pairs.bare bare).2
  | alt => exact bare.1
  | otherwise => exact bare.2
  | many => exact bare
  | again => exact bare
  | sepBy => exact bare.2
  | others => exact bare
  | reference meant => exact definitions _ _ meant

theorem list_of_sequence {patterns : List (Pattern κ)} {value : Value} {rest : View}
    (ends : meanings.Ends (.sequence patterns) view (.matched value rest)) :
    ∃ items, value = .list items := by
  obtain ⟨_, fuel, parsed⟩ := ends
  obtain ⟨items, _, _, delivered⟩ := Reply.bind_eq_matched.mp parsed
  cases delivered
  exact ⟨items, rfl⟩

theorem Bare.quiet (bare : pattern.Bare) : ¬meanings.Raises pattern view := by
  intro raises
  cases raises with
  | map => exact bare.elim
  | guard => exact bare.elim
  | pair pairs firsts seconds raised =>
    cases pairs with
    | ap => exact bare.elim
    | lazyAp => exact bare.elim
    | lift2 => exact bare.elim
    | andThen => cases raised
    | skip => cases raised
    | sequence =>
      obtain ⟨items, rfl⟩ := list_of_sequence seconds
      cases raised

theorem Bare.calm (bare : pattern.Bare)
    (definitions : ∀ target definition, meanings target = .ok definition → definition.Bare) :
    meanings.Calm pattern view := by
  intro part point comes
  induction comes with
  | here => exact bare.quiet
  | through begins _ ih => exact ih (bare.begun definitions begins)

end Pattern

end Descent
