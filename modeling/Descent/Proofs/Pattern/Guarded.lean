import Descent.Proofs.Pattern.Calm
import Descent.Proofs.Pattern.References
import Mathlib

/-!
Grammars in which a reference is entered only behind something that has been consumed. Every run
ends, with at most one reference entered for each character and one more, and it ends in a fault
only if a function was given a value that it does not take.
-/

namespace Descent

def Allowance.faults : Allowance :=
  ⟨fun cause => cause ≠ Option.none, fun _ => True⟩

namespace Pattern

variable {κ : Type}

mutual

/-- Every reference is entered only after a match of a pattern in front of it that advances. -/
def Guarded (advances : Pattern κ → Prop) : Pattern κ → Prop
  | map _ pattern => pattern.Guarded advances
  | always _ pattern => pattern.Guarded advances
  | guard _ pattern => pattern.Guarded advances
  | ap function argument =>
    function.Guarded advances ∧ (advances function ∨ argument.Guarded advances)
  | lazyAp function argument =>
    function.Guarded advances ∧ (advances function ∨ argument.Guarded advances)
  | andThen first second => first.Guarded advances ∧ (advances first ∨ second.Guarded advances)
  | skip first second => first.Guarded advances ∧ (advances first ∨ second.Guarded advances)
  | lift2 _ first second => first.Guarded advances ∧ (advances first ∨ second.Guarded advances)
  | sequence patterns => GuardedAll advances patterns
  | alt first second => first.Guarded advances ∧ second.Guarded advances
  | many element => element.Guarded advances
  | sepBy separator element =>
    element.Guarded advances ∧ (advances element ∨ separator.Guarded advances)
  | reference _ => False
  | _ => True

def GuardedAll (advances : Pattern κ → Prop) : List (Pattern κ) → Prop
  | [] => True
  | pattern :: rest => pattern.Guarded advances ∧ (advances pattern ∨ GuardedAll advances rest)

end

mutual

def consumes : Pattern κ → Bool
  | char _ => true
  | satisfy _ => true
  | literal text => !text.isEmpty
  | map _ pattern => pattern.consumes
  | always _ pattern => pattern.consumes
  | guard _ pattern => pattern.consumes
  | ap function argument => function.consumes || argument.consumes
  | lazyAp function argument => function.consumes || argument.consumes
  | andThen first second => first.consumes || second.consumes
  | skip first second => first.consumes || second.consumes
  | lift2 _ first second => first.consumes || second.consumes
  | sequence patterns => anyConsumes patterns
  | alt first second => first.consumes && second.consumes
  | _ => false

def anyConsumes : List (Pattern κ) → Bool
  | [] => false
  | pattern :: rest => pattern.consumes || anyConsumes rest

end

variable {pattern first second : Pattern κ} {join : Value → Value → Except Fault Value}

theorem Pairs.guarded {advances : Pattern κ → Prop} (pairs : Pairs pattern join first second) :
    pattern.Guarded advances ↔
      first.Guarded advances ∧ (advances first ∨ second.Guarded advances) := by
  cases pairs <;> simp only [Guarded, GuardedAll]

theorem Pairs.consumes_or (pairs : Pairs pattern join first second)
    (consumes : pattern.consumes = true) : first.consumes = true ∨ second.consumes = true := by
  cases pairs <;> simpa only [Pattern.consumes, anyConsumes, Bool.or_eq_true] using consumes

theorem Guarded.imp {advances others : Pattern κ → Prop} (guarded : pattern.Guarded advances)
    (imp : ∀ first, first.references ⊆ pattern.references → advances first → others first) :
    pattern.Guarded others := by
  induction pattern using induct_pairs with
  | atomic pattern atomic => cases atomic <;> trivial
  | map transform pattern ih => exact ih guarded imp
  | always value pattern ih => exact ih guarded imp
  | guard check pattern ih => exact ih guarded imp
  | pair pattern join first second pairs firsts seconds =>
    rw [pairs.references_eq] at imp
    obtain ⟨front, behind⟩ := pairs.guarded.mp guarded
    refine pairs.guarded.mpr ⟨firsts front fun part inside => ?_, ?_⟩
    · exact imp part (List.subset_append_of_subset_left _ inside)
    · refine behind.imp (imp first (List.subset_append_left _ _)) fun last => ?_
      exact seconds last fun part inside => imp part (List.subset_append_of_subset_right _ inside)
  | alt first second firsts seconds =>
    obtain ⟨front, back⟩ := guarded
    refine ⟨firsts front fun part inside => ?_, seconds back fun part inside => ?_⟩
    · exact imp part (List.subset_append_of_subset_left _ inside)
    · exact imp part (List.subset_append_of_subset_right _ inside)
  | many element ih => exact ih guarded imp
  | sepBy separator element separators elements =>
    obtain ⟨front, between⟩ := guarded
    refine ⟨elements front fun part inside => ?_, ?_⟩
    · exact imp part (List.subset_append_of_subset_right _ inside)
    · refine between.imp (imp element (List.subset_append_right _ _)) fun last => ?_
      exact separators last fun part inside => imp part (List.subset_append_of_subset_left _ inside)
  | reference target => exact guarded.elim

section Runs

variable {enter : κ → Parser Value} {ready inside : View → Prop}

theorem eval_stays_within (lasting : View.Lasting ready)
    (entries : ∀ target, (enter target).Stays .faults ready ready Value.views)
    (pattern : Pattern κ) : (pattern.eval enter).Stays .faults ready ready Value.views :=
  eval_stays (fun cause => Option.some_ne_none cause) lasting entries fun _ _ => trivial

/-- References are met only on views that are left by something that advances. -/
theorem Guarded.eval_stays {advances : Pattern κ → Prop} (guarded : pattern.Guarded advances)
    (lasting : View.Lasting ready) (lastingInside : View.Lasting inside)
    (weaken : ∀ view, inside view → ready view)
    (advance : ∀ first, advances first → ∀ view value rest, ready view →
      eval enter first view = .matched value rest → inside rest)
    (entries : ∀ target, (enter target).Stays .faults inside inside Value.views) :
    (pattern.eval enter).Stays .faults ready ready Value.views := by
  have faulty : ∀ cause, Allowance.faults.ending (some cause) := fun cause => Option.some_ne_none cause
  have behind (pattern : Pattern κ) :
      (pattern.eval enter).Stays .faults inside inside Value.views :=
    eval_stays_within lastingInside entries pattern
  have ahead {first : Pattern κ} (advances : advances first)
      (stays : (first.eval enter).Stays .faults ready ready Value.views) :
      (first.eval enter).Stays .faults ready inside Value.views :=
    stays.leaving (advance first advances)
  induction pattern using induct_pairs with
  | atomic pattern atomic => exact atomic.eval_stays lasting fun _ _ => trivial
  | map transform pattern ih =>
    exact (ih guarded).map fun value _ => transform.apply_yields faulty value
  | always value pattern ih => exact (ih guarded).always fun _ _ => trivial
  | guard check pattern ih => exact (ih guarded).guard fun value _ => check.holds_yields faulty value
  | pair pattern join first second pairs firsts seconds =>
    obtain ⟨front, advances | others⟩ := pairs.guarded.mp guarded
    · exact (pairs.eval_stays faulty (ahead advances (firsts front)) (behind second)).imp
        (fun _ => id) weaken
    · exact pairs.eval_stays faulty (firsts front) (seconds others)
  | alt first second firsts seconds => exact (firsts guarded.1).alt (seconds guarded.2)
  | many element ih => exact (ih guarded).many.list
  | sepBy separator element separators elements =>
    obtain ⟨front, between⟩ := guarded
    have list : ((separator.eval enter).sepBy (element.eval enter)).Stays .faults ready ready
        fun values => values.flatMap Value.views := by
      rcases between with advances | between
      · exact .sepBy_behind (ahead advances (elements front)) (behind separator) (behind element) weaken
      · exact .sepBy (separators between) (elements front)
    exact list.list
  | reference target => exact guarded.elim

theorem eval_stays_of_consumes {allowed : Allowance} (faulty : ∀ cause, allowed.ending (some cause))
    (free : ∀ view, allowed.view view) {count : Nat}
    (entries : ∀ {ready : View → Prop}, View.Lasting ready → ∀ target,
      (enter target).Stays allowed ready ready Value.views) (consumes : pattern.consumes = true) :
    (pattern.eval enter).Stays allowed (fun view => view.length ≤ count)
      (fun view => view.length < count) Value.views := by
  have keeps {ready : View → Prop} (lasting : View.Lasting ready) (pattern : Pattern κ) :
      (pattern.eval enter).Stays allowed ready ready Value.views :=
    eval_stays faulty lasting (entries lasting) fun _ _ => free _
  have shorter {view rest : View} {word : List Char} (split : view.Splits word rest)
      (nonempty : word ≠ []) (start : view.length ≤ count) : rest.length < count := by
    have lengths := split.length
    have positive := List.length_pos_iff.mpr nonempty
    omega
  induction pattern using induct_pairs with
  | atomic pattern atomic =>
    cases atomic with
    | char text =>
      rw [eval, Piece.parser, Piece.character]
      split
      · exact (Parser.Stays.char fun split => shorter split (by simp)).always fun _ _ => free _
      · exact .empty
    | literal text =>
      have nonempty : text.toList ≠ [] := by
        simpa [Pattern.consumes, String.isEmpty_iff] using consumes
      exact (Parser.Stays.literal fun split => shorter split nonempty).map fun _ _ =>
        .of_subset (List.nil_subset _)
    | satisfy chars =>
      exact (Parser.Stays.satisfy fun split _ => shorter split (by simp)).map fun _ _ =>
        .of_subset (List.nil_subset _)
    | _ => cases consumes
  | map transform pattern ih =>
    exact (ih consumes).map fun value _ => transform.apply_yields faulty value
  | always value pattern ih => exact (ih consumes).always fun _ _ => free _
  | guard check pattern ih => exact (ih consumes).guard fun value _ => check.holds_yields faulty value
  | pair pattern join first second pairs firsts seconds =>
    rcases pairs.consumes_or consumes with front | back
    · have lasting : View.Lasting fun view => view.length < count :=
        fun _ _ reaches => Nat.lt_of_le_of_lt reaches.length_le
      exact pairs.eval_stays faulty (firsts front) (keeps lasting second)
    · have lasting : View.Lasting fun view => view.length ≤ count :=
        fun _ _ reaches => Nat.le_trans reaches.length_le
      exact pairs.eval_stays faulty (keeps lasting first) (seconds back)
  | alt first second firsts seconds =>
    obtain ⟨front, back⟩ := Bool.and_eq_true_iff.mp consumes
    exact (firsts front).alt (seconds back)
  | _ => cases consumes

end Runs

end Pattern

namespace Meanings

variable {κ : Type} {meanings : Meanings κ} {pattern : Pattern κ} {view : View}

def Advances (meanings : Meanings κ) (pattern : Pattern κ) : Prop :=
  ∀ fuel view value rest, pattern.eval (meanings.enter fuel) view = .matched value rest →
    rest.length < view.length

theorem advances_of_consumes (consumes : pattern.consumes = true) : meanings.Advances pattern := by
  intro fuel view value rest parsed
  let allowed : Allowance := ⟨fun _ => True, fun _ => True⟩
  have stays : (pattern.eval (meanings.enter fuel)).Stays allowed
      (fun point => point.length ≤ view.length) (fun point => point.length < view.length) Value.views := by
    refine Pattern.eval_stays_of_consumes (fun _ => trivial) (fun _ => trivial) ?_ consumes
    intro ready lasting
    exact meanings.enter_stays lasting (fun _ => trivial) (fun _ _ _ _ _ => trivial) fuel
  have left := stays view (Nat.le_refl _)
  rw [parsed] at left
  cases left with
  | matched _ shorter _ => exact shorter

section Entries

variable (guarded : ∀ target definition, meanings target = .ok definition →
  definition.Guarded meanings.Advances)
include guarded

theorem enter_stays_shorter (fuel : Nat) (target : κ) :
    (meanings.enter fuel target).Stays .faults (fun view => view.length < fuel)
      (fun view => view.length < fuel) Value.views := by
  induction fuel generalizing target with
  | zero => exact fun view start => absurd start (Nat.not_lt_zero _)
  | succ fuel ih =>
    rw [enter]
    split
    · rename_i definition meant
      refine (guarded target definition meant).eval_stays (Json.Grammar.shorter_lasting (fuel + 1))
        (Json.Grammar.shorter_lasting fuel) (fun _ => Nat.lt_succ_of_lt) ?_ ih
      intro first advances view value rest start parsed
      exact Nat.lt_of_lt_of_le (advances fuel view value rest parsed) (Nat.le_of_lt_succ start)
    · exact fun _ _ => .fault (Option.some_ne_none _)

theorem eval_ne_exhausted (pattern : Pattern κ) {fuel : Nat} (enough : view.length < fuel) :
    pattern.eval (meanings.enter fuel) view ≠ .exhausted := by
  have stays := Pattern.eval_stays_within (Json.Grammar.shorter_lasting fuel)
    (enter_stays_shorter guarded fuel) pattern view enough
  intro exhausted
  rw [exhausted] at stays
  cases stays with
  | exhausted possible => exact possible rfl

end Entries

theorem Advances.congr {others : Meanings κ}
    (agree : ∀ target ∈ pattern.references, ∀ fuel, meanings.enter fuel target = others.enter fuel target)
    (advances : meanings.Advances pattern) : others.Advances pattern := by
  intro fuel view value rest parsed
  rw [← Pattern.eval_congr fun target inside => agree target inside fuel] at parsed
  exact advances fuel view value rest parsed

/-- Only what the pattern relies on has to be guarded. -/
theorem eval_ne_exhausted_of_relied
    (guarded : ∀ target definition, meanings.Relies pattern target → meanings target = .ok definition →
      definition.Guarded meanings.Advances) {fuel : Nat} (enough : view.length < fuel) :
    pattern.eval (meanings.enter fuel) view ≠ .exhausted := by
  -- elsewhere nothing matches, so that every definition is guarded
  let trimmed := meanings.elsewhere pattern fun _ => .ok .empty
  have agree : ∀ target, meanings.Relies pattern target → meanings target = trimmed target :=
    fun target => elsewhere_of_relies
  have guardedToo : ∀ target definition, trimmed target = .ok definition →
      definition.Guarded trimmed.Advances := by
    intro target definition meant
    by_cases relies : meanings.Relies pattern target
    · rw [← agree target relies] at meant
      refine (guarded target definition relies meant).imp fun first within => ?_
      refine Advances.congr fun inner inside fuel => ?_
      exact enter_congr agree fuel (.through relies meant (within inside))
    · have nothing : trimmed target = .ok .empty := if_neg relies
      rw [nothing] at meant
      cases meant
      trivial
  rw [eval_congr agree]
  exact eval_ne_exhausted guardedToo pattern enough

/-- A match of a character, of a text that is not empty or of a sequence with one of them in it
consumes something. If every definition enters references only behind such a match, a run ends with
one more reference entered at once than there are characters. It ends in a match or in none, as long
as the references that it comes to are defined and no function is given a value that it does not
take. -/
theorem guarded_total (pattern : Pattern κ) (view : View)
    (guarded : ∀ target definition, meanings.Relies pattern target → meanings target = .ok definition →
      definition.Guarded meanings.Advances) :
    (∀ first : Pattern κ, first.consumes = true → meanings.Advances first) ∧
    (∃ reply, meanings.Ends pattern view reply ∧
      (∀ fuel, view.length + 1 ≤ fuel → pattern.eval (meanings.enter fuel) view = reply) ∧
      ∀ count, 0 < count → meanings.run count pattern view = reply) ∧
    ((∀ target point, meanings.ComesTo pattern view (.reference target) point →
        ∃ definition, meanings target = .ok definition) → meanings.Calm pattern view →
      (∃ value rest, meanings.Ends pattern view (.matched value rest)) ∨
        meanings.Ends pattern view .noMatch) := by
  have ended : pattern.eval (meanings.enter (view.length + 1)) view ≠ .exhausted :=
    eval_ne_exhausted_of_relied guarded (Nat.lt_succ_self _)
  have more {fuel : Nat} (enough : view.length + 1 ≤ fuel) :
      pattern.eval (meanings.enter fuel) view =
        pattern.eval (meanings.enter (view.length + 1)) view :=
    (eval_of_le enough ended).symm
  refine ⟨fun first => advances_of_consumes, ⟨_, ⟨ended, _, rfl⟩, fun fuel => more, ?_⟩, ?_⟩
  · intro count positive
    refine more (Nat.succ_le_succ ?_)
    exact Nat.le_trans (Nat.le_succ _) (Nat.le_mul_of_pos_left _ positive)
  · intro defined calm
    have faultFree : meanings.FaultFree (view.length + 1) pattern :=
      eval_faultFree (reference_faultFree _) pattern
    cases parsed : pattern.eval (meanings.enter (view.length + 1)) view with
    | matched value rest => exact .inl ⟨value, rest, ends_of_matched parsed⟩
    | noMatch => exact .inr (ends_of_noMatch parsed)
    | fault cause => exact absurd parsed (faultFree view cause ⟨calm, defined⟩)
    | exhausted => exact absurd parsed ended

def brackets : Meanings Unit :=
  fun _ => .ok (.sequence
    [.char "(", .many (.alt (.reference ()) (.span .digit)), .char ")"])

theorem brackets_total :
    (∀ target definition, brackets target = .ok definition → definition.Guarded brackets.Advances) ∧
    (∀ target, ∃ definition, brackets target = .ok definition) ∧
    brackets.Calm (.many (.reference ())) (View.of "(7())()(") ∧
    (∀ fuel, 9 ≤ fuel → (Pattern.many (.reference ())).eval (brackets.enter fuel) (View.of "(7())()(") ≠
      .exhausted) ∧
    ((∃ value rest, brackets.Ends (.many (.reference ())) (View.of "(7())()(") (.matched value rest)) ∨
      brackets.Ends (.many (.reference ())) (View.of "(7())()(") .noMatch) := by
  have guarded : ∀ target definition, brackets target = .ok definition →
      definition.Guarded brackets.Advances := by
    intro target definition meant
    cases meant
    exact ⟨trivial, .inl (advances_of_consumes rfl)⟩
  have defined : ∀ target, ∃ definition, brackets target = .ok definition := fun _ => ⟨_, rfl⟩
  have calm : brackets.Calm (.many (.reference ())) (View.of "(7())()(") := by
    refine Pattern.Bare.calm trivial fun target definition meant => ?_
    cases meant
    exact ⟨trivial, ⟨trivial, trivial⟩, trivial, trivial⟩
  obtain ⟨_, ⟨reply, ends, settled, _⟩, total⟩ :=
    guarded_total (.many (.reference ())) (View.of "(7())()(") fun target definition _ =>
      guarded target definition
  refine ⟨guarded, defined, calm, fun fuel enough => ?_, total (fun target _ _ => defined target) calm⟩
  have nine : (View.of "(7())()(").length + 1 ≤ fuel := enough
  exact settled fuel nine ▸ ends.1

end Meanings

end Descent
