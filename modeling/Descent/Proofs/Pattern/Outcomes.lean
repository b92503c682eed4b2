import Descent.Proofs.Pattern.Containment
import Mathlib

/-!
How a compound pattern ends, in terms of how its parts end. The parts may need different bounds on
the references entered at once, so their runs are first brought under one bound.
-/

namespace Descent

namespace Meanings

variable {κ : Type} {meanings : Meanings κ} {pattern other first second : Pattern κ}
variable {view point middle rest : View} {value : Value} {reply left right : Reply Value}
variable {join : Value → Value → Except Fault Value}

def Reads (meanings : Meanings κ) (pattern : Pattern κ) (view : View) (value : Value) (rest : View) :
    Prop :=
  meanings.Ends pattern view (.matched value rest)

theorem Ends.settles (ends : meanings.Ends pattern view reply) :
    ∃ fuel, ∀ more, fuel ≤ more → pattern.eval (meanings.enter more) view = reply := by
  obtain ⟨ended, fuel, rfl⟩ := ends
  exact ⟨fuel, fun more enough => (eval_of_le enough ended).symm⟩

theorem Ends.at_once (ends : meanings.Ends pattern view left) (endsToo : meanings.Ends other point right) :
    ∃ fuel, pattern.eval (meanings.enter fuel) view = left ∧
      other.eval (meanings.enter fuel) point = right := by
  obtain ⟨fuel, settled⟩ := ends.settles
  obtain ⟨more, settles⟩ := endsToo.settles
  exact ⟨max fuel more, settled _ (Nat.le_max_left _ _), settles _ (Nat.le_max_right _ _)⟩

theorem Reads.reaches (reads : meanings.Reads pattern view value rest) : view.Reaches rest := by
  obtain ⟨_, fuel, parsed⟩ := reads
  let allowed : Allowance := ⟨fun _ => True, fun _ => True⟩
  have stays : (pattern.eval (meanings.enter fuel)).Stays allowed (fun _ => True) (fun _ => True)
      Value.views := by
    refine Pattern.eval_stays (fun _ => trivial) View.lasting_true ?_ fun _ _ => trivial
    exact meanings.enter_stays View.lasting_true (fun _ => trivial) (fun _ _ _ _ _ => trivial) fuel
  have stays := stays view trivial
  rw [parsed] at stays
  cases stays with
  | matched reaches _ _ => exact reaches

def Unmatched (reply : Reply Value) : Prop :=
  ∀ value rest, reply ≠ .matched value rest

theorem ends_pairs_iff (pairs : Pattern.Pairs pattern join first second) :
    meanings.Ends pattern view reply ↔ meanings.Ends first view reply ∧ Unmatched reply ∨
      ∃ value middle last, meanings.Reads first view value middle ∧ meanings.Ends second middle last ∧
        reply = last.bind fun following rest => .deliver (join value following) rest := by
  constructor
  · rintro ⟨ended, fuel, rfl⟩
    rw [pairs.eval_eq, Parser.lift2_apply] at ended ⊢
    cases parsed : first.eval (meanings.enter fuel) view with
    | matched value middle =>
      rw [parsed, Reply.bind_matched] at ended
      refine .inr ⟨value, middle, _, ends_of_matched parsed, ⟨fun exhausted => ?_, fuel, rfl⟩, rfl⟩
      rw [exhausted] at ended
      exact ended rfl
    | noMatch => exact .inl ⟨ends_of_noMatch parsed, by simp [Unmatched]⟩
    | fault cause => exact .inl ⟨ends_of_fault parsed, by simp [Unmatched]⟩
    | exhausted =>
      rw [parsed] at ended
      exact absurd rfl ended
  · rintro (⟨⟨ended, fuel, parsed⟩, unmatched⟩ | ⟨value, middle, last, reads, ends, rfl⟩)
    · refine ⟨ended, fuel, ?_⟩
      rw [pairs.eval_eq, Parser.lift2_apply, parsed]
      cases reply with
      | matched value rest => exact absurd rfl (unmatched value rest)
      | _ => rfl
    · obtain ⟨fuel, parsed, read⟩ := Ends.at_once reads ends
      refine ⟨?_, fuel, ?_⟩
      · have ended := ends.1
        cases last with
        | matched following rest => simp
        | noMatch => simp
        | fault cause => simp
        | exhausted => contradiction
      · rw [pairs.eval_eq, Parser.lift2_apply, parsed, Reply.bind_matched, read]

theorem ends_andThen_iff :
    meanings.Ends (.andThen first second) view reply ↔
      meanings.Ends first view reply ∧ Unmatched reply ∨
        ∃ value middle, meanings.Reads first view value middle ∧ meanings.Ends second middle reply := by
  rw [ends_pairs_iff (.andThen first second)]
  simp only [Reply.deliver_ok, Reply.bind_matched_right, exists_eq_right_right']

theorem ends_alt_iff :
    meanings.Ends (.alt first second) view reply ↔
      meanings.Ends first view reply ∧ reply ≠ .noMatch ∨
        meanings.Ends first view .noMatch ∧ meanings.Ends second view reply := by
  constructor
  · rintro ⟨ended, fuel, rfl⟩
    rw [Pattern.eval] at ended ⊢
    by_cases refused : first.eval (meanings.enter fuel) view = .noMatch
    · rw [Parser.alt_of_noMatch_left refused] at ended ⊢
      exact .inr ⟨ends_of_noMatch refused, ended, fuel, rfl⟩
    · rw [Parser.alt_of_ne_noMatch refused] at ended ⊢
      exact .inl ⟨⟨ended, fuel, rfl⟩, refused⟩
  · rintro (⟨⟨ended, fuel, rfl⟩, answers⟩ | ⟨refused, ends⟩)
    · exact ⟨ended, fuel, by rw [Pattern.eval, Parser.alt_of_ne_noMatch answers]⟩
    · obtain ⟨fuel, fails, parsed⟩ := Ends.at_once refused ends
      exact ⟨ends.1, fuel, by rw [Pattern.eval, Parser.alt_of_noMatch_left fails, parsed]⟩

theorem ends_just_iff : meanings.Ends (.just value) view reply ↔ reply = .matched value view := by
  constructor
  · rintro ⟨_, _, rfl⟩
    rfl
  · rintro rfl
    exact ⟨by simp, 0, rfl⟩

end Meanings

end Descent
