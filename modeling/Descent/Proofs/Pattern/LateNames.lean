import Descent.Proofs.Pattern.References
import Descent.Proofs.Pattern.Sessions
import Mathlib

/-!
Names that a run looks up when it gets there. Building a parser leaves no other names in it than
those in the parts that `lazyAp` asks for later.
-/

namespace Descent

namespace Pattern

variable {κ ι : Type}

mutual

def late : Pattern κ → List κ
  | map _ pattern => pattern.late
  | always _ pattern => pattern.late
  | ap function argument => function.late ++ argument.late
  | lazyAp function argument => function.late ++ argument.references
  | alt first second => first.late ++ second.late
  | andThen first second => first.late ++ second.late
  | skip first second => first.late ++ second.late
  | lift2 _ first second => first.late ++ second.late
  | sequence patterns => lateAll patterns
  | guard _ pattern => pattern.late
  | many element => element.late
  | sepBy separator element => separator.late ++ element.late
  | _ => []

def lateAll : List (Pattern κ) → List κ
  | [] => []
  | pattern :: rest => pattern.late ++ lateAll rest

end

theorem late_subset (pattern : Pattern κ) : pattern.late ⊆ pattern.references := by
  have both {front frontToo back backToo : List κ} (left : front ⊆ frontToo) (right : back ⊆ backToo) :
      front ++ back ⊆ frontToo ++ backToo :=
    List.append_subset_of_subset_of_subset (List.subset_append_of_subset_left _ left)
      (List.subset_append_of_subset_right _ right)
  induction pattern using induct_pairs with
  | atomic pattern atomic => cases atomic <;> exact List.nil_subset _
  | map transform pattern ih => exact ih
  | always value pattern ih => exact ih
  | guard check pattern ih => exact ih
  | pair pattern join first second pairs firsts seconds =>
    cases pairs with
    | lazyAp => exact both firsts (List.Subset.refl _)
    | _ => exact both firsts seconds
  | alt first second firsts seconds => exact both firsts seconds
  | many element ih => exact ih
  | sepBy separator element separators elements => exact both separators elements
  | reference target => exact List.nil_subset _

variable {scope : κ → Except Fault (Pattern ι)} {later : κ → ι} {keys lates : List κ}

def Sourced (scope : κ → Except Fault (Pattern ι)) (later : κ → ι) (keys lates : List κ)
    (found : List ι) : Prop :=
  ∀ reference ∈ found,
    (∃ key ∈ keys, ∃ inner, scope key = .ok inner ∧ reference ∈ inner.references) ∨
      ∃ key ∈ lates, reference = later key

theorem sourced_nil : Sourced scope later keys lates [] :=
  fun _ member => absurd member List.not_mem_nil

theorem Sourced.mono {moreKeys moreLates : List κ} {found : List ι}
    (sourced : Sourced scope later keys lates found) (wider : keys ⊆ moreKeys)
    (widerLates : lates ⊆ moreLates) : Sourced scope later moreKeys moreLates found := by
  intro reference member
  rcases sourced reference member with ⟨key, inside, held⟩ | ⟨key, inside, same⟩
  · exact .inl ⟨key, wider inside, held⟩
  · exact .inr ⟨key, widerLates inside, same⟩

theorem Sourced.append {otherKeys otherLates : List κ} {found more : List ι}
    (sourced : Sourced scope later keys lates found)
    (follow : Sourced scope later otherKeys otherLates more) :
    Sourced scope later (keys ++ otherKeys) (lates ++ otherLates) (found ++ more) := by
  intro reference member
  rcases List.mem_append.mp member with first | second
  · exact sourced.mono (List.subset_append_left _ _) (List.subset_append_left _ _) reference first
  · exact follow.mono (List.subset_append_right _ _) (List.subset_append_right _ _) reference second

/-- What is kept for later comes from the late keys alone. -/
theorem Sourced.kept {found : List ι} (subset : lates ⊆ keys)
    (sourced : Sourced (fun target => .ok (.reference (later target))) later keys lates found) :
    Sourced scope later [] keys found := by
  intro reference member
  rcases sourced reference member with ⟨key, inside, inner, held, own⟩ | ⟨key, inside, same⟩
  · cases held
    exact .inr ⟨key, inside, List.mem_singleton.mp own⟩
  · exact .inr ⟨key, subset inside, same⟩

section Parts

variable {result other : Except Fault (Pattern ι)} {built : Pattern ι} {otherKeys otherLates : List κ}

theorem sourced_of_one {make : Pattern ι → Pattern ι} (resolved : (do return make (← result)) = .ok built)
    (same : ∀ inner, (make inner).references = inner.references)
    (part : ∀ inner, result = .ok inner → Sourced scope later keys lates inner.references) :
    Sourced scope later keys lates built.references := by
  obtain ⟨inner, first, final⟩ := bind_eq_ok.mp resolved
  cases final
  rw [same]
  exact part inner first

theorem sourced_of_two {make : Pattern ι → Pattern ι → Pattern ι}
    (resolved : (do return make (← result) (← other)) = .ok built)
    (same : ∀ left right, (make left right).references = left.references ++ right.references)
    (part : ∀ left, result = .ok left → Sourced scope later keys lates left.references)
    (others : ∀ right, other = .ok right → Sourced scope later otherKeys otherLates right.references) :
    Sourced scope later (keys ++ otherKeys) (lates ++ otherLates) built.references := by
  obtain ⟨left, first, final⟩ := bind_eq_ok.mp resolved
  obtain ⟨right, second, final⟩ := bind_eq_ok.mp final
  cases final
  rw [same]
  exact (part left first).append (others right second)

end Parts

theorem references_resolveAll {patterns : List (Pattern κ)} {others : List (Pattern ι)}
    (each : ∀ pattern ∈ patterns, ∀ built, pattern.resolve scope later = .ok built →
      Sourced scope later pattern.references pattern.late built.references)
    (resolved : resolveAll scope later patterns = .ok others) :
    Sourced scope later (referencesAll patterns) (lateAll patterns) (referencesAll others) := by
  induction patterns generalizing others with
  | nil =>
    cases resolved
    exact sourced_nil
  | cons pattern rest ih =>
    obtain ⟨here, later⟩ := List.forall_mem_cons.mp each
    obtain ⟨built, first, final⟩ := bind_eq_ok.mp resolved
    obtain ⟨more, second, final⟩ := bind_eq_ok.mp final
    cases final
    exact (here built first).append (ih later second)

/-- Building leaves no other references than those that the names of the pattern stand for, and those
that are kept for later. -/
theorem references_resolve {pattern : Pattern κ} {built : Pattern ι}
    (resolved : pattern.resolve scope later = .ok built) :
    Sourced scope later pattern.references pattern.late built.references := by
  induction pattern generalizing scope built with
  | reference target =>
    intro reference member
    exact .inl ⟨target, List.mem_singleton_self target, built, resolved, member⟩
  | map transform pattern ih => exact sourced_of_one resolved (fun _ => rfl) fun _ => ih
  | always value pattern ih => exact sourced_of_one resolved (fun _ => rfl) fun _ => ih
  | guard check pattern ih => exact sourced_of_one resolved (fun _ => rfl) fun _ => ih
  | many element ih => exact sourced_of_one resolved (fun _ => rfl) fun _ => ih
  | ap function argument functions arguments =>
    exact sourced_of_two resolved (fun _ _ => rfl) (fun _ => functions) fun _ => arguments
  | alt first second firsts seconds =>
    exact sourced_of_two resolved (fun _ _ => rfl) (fun _ => firsts) fun _ => seconds
  | andThen first second firsts seconds =>
    exact sourced_of_two resolved (fun _ _ => rfl) (fun _ => firsts) fun _ => seconds
  | skip first second firsts seconds =>
    exact sourced_of_two resolved (fun _ _ => rfl) (fun _ => firsts) fun _ => seconds
  | lift2 combine first second firsts seconds =>
    exact sourced_of_two resolved (fun _ _ => rfl) (fun _ => firsts) fun _ => seconds
  | sepBy separator element separators elements =>
    exact sourced_of_two resolved (fun _ _ => rfl) (fun _ => separators) fun _ => elements
  | lazyAp function argument functions arguments =>
    have sourced := sourced_of_two resolved (fun _ _ => rfl) (fun _ => functions)
      fun _ final => (arguments final).kept argument.late_subset
    exact sourced.mono (by simp [references]) (List.Subset.refl _)
  | sequence patterns ih =>
    obtain ⟨others, first, final⟩ := bind_eq_ok.mp resolved
    cases final
    exact references_resolveAll (fun pattern inside _ => ih pattern inside) first
  | _ =>
    cases resolved
    exact sourced_nil

end Pattern

def SessionStep.late : SessionStep → List String
  | define _ pattern => pattern.late
  | name _ pattern => pattern.late
  | _ => []

namespace Session

variable {session next : Session} {step : SessionStep} {names : List String} {key : String}
variable {pattern : Pattern String} {built : Pattern Reference}

def LateIn (session : Session) (names : List String) : Prop :=
  ∀ reference definition, session.meanings reference = .ok definition →
    ∀ key, .name key ∈ definition.references → key ∈ names

theorem LateIn.mono {more : List String} (lateIn : session.LateIn names) (wider : names ⊆ more) :
    session.LateIn more :=
  fun reference definition meant key member => wider (lateIn reference definition meant key member)

theorem LateIn.of_build (lateIn : session.LateIn names) (resolved : session.build pattern = .ok built)
    (member : .name key ∈ built.references) : key ∈ names ++ pattern.late := by
  rcases Pattern.references_resolve resolved _ member with ⟨other, _, inner, held, own⟩ | ⟨other, inside, same⟩
  · exact List.mem_append_left _ (lateIn (.name other) inner held key own)
  · cases same
    exact List.mem_append_right _ inside

theorem Turns.lateIn (turns : session.Turns step next) (known : session.Known)
    (lateIn : session.LateIn names) : next.LateIn (names ++ step.late) := by
  have wider : session.LateIn (names ++ step.late) := lateIn.mono (List.subset_append_left _ _)
  cases turns with
  | made key name =>
    intro reference definition meant
    cases reference with
    | cell id =>
      refine wider (.cell id) definition ?_
      rw [meanings, Cells.meaning_eq_ok] at meant ⊢
      rwa [bindName, Cells.definition?_add] at meant
    | name other =>
      rw [meanings, find_bindName] at meant
      split at meant
      · cases meant
        intro late member
        cases List.mem_singleton.mp member
      · exact wider (.name other) definition meant
  | named resolved =>
    intro reference definition meant
    cases reference with
    | cell id => exact wider (.cell id) definition meant
    | name other =>
      rw [meanings, find_bindName] at meant
      split at meant
      · cases meant
        exact fun late member => lateIn.of_build resolved member
      · exact wider (.name other) definition meant
  | defined asked result =>
    cases step with
    | define key pattern =>
      intro reference definition meant
      cases reference with
      | cell id =>
        rw [meanings, Cells.meaning_eq_ok, Cells.definition?_define result (known_of_asked known asked)] at meant
        split at meant
        · cases meant
          exact fun late member => lateIn.of_build (asked?_define.mp asked).2 member
        · exact wider (.cell id) definition (Cells.meaning_eq_ok.mpr meant)
      | name other => exact wider (.name other) definition meant
    | _ => cases asked
  | refused => exact wider
  | still => exact wider

theorem LateIn.run (lateIn : session.LateIn names) (known : session.Known) (steps : List SessionStep) :
    (session.run steps).1.LateIn (names ++ steps.flatMap SessionStep.late) := by
  induction steps generalizing session names with
  | nil => exact lateIn.mono (List.subset_append_left _ _)
  | cons step rest ih =>
    have turns := session.turns step
    rw [run_cons, List.flatMap_cons, ← List.append_assoc]
    exact ih (turns.lateIn known lateIn) (turns.known known)

theorem start_lateIn : start.LateIn [] := by
  intro reference definition meant
  cases reference <;> cases meant

/-- A run looks up a name late only if some description has it in a part that is asked for later. -/
theorem late_of_relies {steps : List SessionStep} {late : String} (found : (after steps).find key = .ok built)
    (relies : (after steps).meanings.Relies built (.name late)) :
    late ∈ steps.flatMap SessionStep.late := by
  have lateIn := start_lateIn.run start_known steps
  cases relies with
  | here inside => exact lateIn (.name key) built found late inside
  | through _ meant inside => exact lateIn _ _ meant late inside

end Session

end Descent
