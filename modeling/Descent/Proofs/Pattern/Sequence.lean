import Descent.Proofs.Parser.Sequence
import Descent.Proofs.Pattern.Outcomes
import Mathlib

/-!
How a sequence in a pattern ends: in the values of its parts, which follow one another, or as the
first part that does not match. The parts may need different bounds on the references entered.
-/

namespace Descent

namespace Meanings

variable {κ : Type} {meanings : Meanings κ} {patterns : List (Pattern κ)} {view rest : View}
variable {value : Value} {reply : Reply Value}

theorem ends_nothing_iff :
    meanings.Ends (.sequence []) view reply ↔ reply = .matched (.list []) view := by
  constructor
  · rintro ⟨_, _, rfl⟩
    rfl
  · rintro rfl
    exact ⟨by simp, 0, rfl⟩

theorem reads_sequence_iff :
    meanings.Reads (.sequence patterns) view value rest ↔ ∃ values, value = .list values ∧
      Threads meanings.Reads patterns view values rest := by
  induction patterns generalizing view value rest with
  | nil =>
    rw [Reads, ends_nothing_iff]
    constructor
    · intro same
      cases same
      exact ⟨[], rfl, .nil⟩
    · rintro ⟨values, rfl, ⟨⟩⟩
      rfl
  | cons pattern patterns ih =>
    rw [Reads, ends_pairs_iff (.sequence pattern patterns)]
    constructor
    · rintro (⟨_, unmatched⟩ | ⟨first, middle, last, reads, ends, same⟩)
      · exact absurd rfl (unmatched value rest)
      · obtain ⟨others, point, rfl, joined⟩ := Reply.bind_eq_matched.mp same.symm
        obtain ⟨values, rfl, threads⟩ := ih.mp ends
        cases joined
        exact ⟨first :: values, rfl, .cons reads threads⟩
    · rintro ⟨values, rfl, threads⟩
      cases threads with
      | cons reads follow => exact .inr ⟨_, _, _, reads, ih.mpr ⟨_, rfl, follow⟩, rfl⟩

theorem sequence_fails_iff (unmatched : Unmatched reply) :
    meanings.Ends (.sequence patterns) view reply ↔ ∃ before pattern others values point,
      patterns = before ++ pattern :: others ∧ Threads meanings.Reads before view values point ∧
        meanings.Ends pattern point reply := by
  induction patterns generalizing view with
  | nil =>
    rw [ends_nothing_iff]
    constructor
    · rintro rfl
      exact absurd rfl (unmatched _ _)
    · rintro ⟨before, pattern, others, values, point, split, _⟩
      simp at split
  | cons pattern patterns ih =>
    rw [ends_pairs_iff (.sequence pattern patterns)]
    constructor
    · rintro (⟨ends, _⟩ | ⟨first, middle, last, reads, ends, same⟩)
      · exact ⟨[], pattern, patterns, [], view, rfl, .nil, ends⟩
      · have same : reply = last := by
          cases last with
          | matched others point =>
            obtain ⟨values, rfl, _⟩ := reads_sequence_iff.mp ends
            exact absurd same (unmatched _ _)
          | _ => exact same
        obtain ⟨before, failing, others, values, point, rfl, threads, fails⟩ := ih.mp (same ▸ ends)
        exact ⟨pattern :: before, failing, others, first :: values, point, rfl,
          .cons reads threads, fails⟩
    · rintro ⟨before, failing, others, values, point, split, threads, fails⟩
      cases threads with
      | nil =>
        cases split
        exact .inl ⟨fails, unmatched⟩
      | cons reads follow =>
        cases split
        refine .inr ⟨_, _, reply, reads, ih.mpr ⟨_, _, _, _, _, rfl, follow, fails⟩, ?_⟩
        cases reply with
        | matched value rest => exact absurd rfl (unmatched value rest)
        | _ => rfl

/-- A sequence of parts that end wherever they are run ends too. -/
theorem sequence_settled (ended : ∀ before pattern others values point,
      patterns = before ++ pattern :: others → Threads meanings.Reads before view values point →
        ∃ reply, meanings.Ends pattern point reply) :
    ∃ reply, meanings.Ends (.sequence patterns) view reply := by
  rcases threads_or_stops meanings.Reads patterns view with ⟨values, rest, threads⟩ |
    ⟨before, pattern, others, values, point, split, threads, stops⟩
  · exact ⟨_, reads_sequence_iff.mpr ⟨values, rfl, threads⟩⟩
  · obtain ⟨reply, ends⟩ := ended _ _ _ _ _ split threads
    have unmatched : Unmatched reply := by
      rintro value rest rfl
      exact stops value rest ends
    exact ⟨reply, (sequence_fails_iff unmatched).mpr ⟨_, _, _, _, _, split, threads, ends⟩⟩

structure LeftToRight (meanings : Meanings κ) (patterns : List (Pattern κ)) (view : View) :
    Prop where
  matched_iff : ∀ value rest, meanings.Ends (.sequence patterns) view (.matched value rest) ↔
    ∃ values, value = .list values ∧ Threads meanings.Reads patterns view values rest
  noMatch_iff : meanings.Ends (.sequence patterns) view .noMatch ↔
    ∃ before pattern others values point, patterns = before ++ pattern :: others ∧
      Threads meanings.Reads before view values point ∧ meanings.Ends pattern point .noMatch
  fault_iff : ∀ cause, meanings.Ends (.sequence patterns) view (.fault cause) ↔
    ∃ before pattern others values point, patterns = before ++ pattern :: others ∧
      Threads meanings.Reads before view values point ∧ meanings.Ends pattern point (.fault cause)
  settled : (∀ before pattern others values point, patterns = before ++ pattern :: others →
      Threads meanings.Reads before view values point →
        ∃ reply, meanings.Ends pattern point reply) →
    ∃ reply, meanings.Ends (.sequence patterns) view reply

theorem leftToRight (meanings : Meanings κ) (patterns : List (Pattern κ)) (view : View) :
    LeftToRight meanings patterns view where
  matched_iff := fun _ _ => reads_sequence_iff
  noMatch_iff := sequence_fails_iff (by simp [Unmatched])
  fault_iff := fun _ => sequence_fails_iff (by simp [Unmatched])
  settled := sequence_settled

end Meanings

namespace Parser

variable {α ι κ : Type}

/-- A sequence runs its parsers from left to right, a sequence of two parts is the first part and
then the second one, and a traversal has one value for each item, in the order of the items. -/
theorem sequence_left_to_right (parsers others : List (Parser α)) (f : ι → Parser α)
    (items : List ι) (meanings : Meanings κ) (patterns : List (Pattern κ)) (view : View) :
    LeftToRight parsers view ∧ meanings.LeftToRight patterns view ∧
    sequence (parsers ++ others) =
      lift2 (fun values following => .ok (values ++ following)) (sequence parsers)
        (sequence others) ∧
    (∀ values rest, traverse f items view = .matched values rest ↔
      Threads (fun item => (f item).Reads) items view values rest) ∧
    ∀ values rest, traverse f items view = .matched values rest →
      values.length = items.length ∧
        List.Forall₂ (fun item value => (f item).Gives value) items values := by
  refine ⟨leftToRight parsers view, meanings.leftToRight patterns view,
    sequence_append parsers others, ?_, ?_⟩
  · exact fun values rest => traverse_eq_matched_iff
  · intro values rest parsed
    have each := (traverse_eq_matched_iff.mp parsed).forall₂
    exact ⟨each.length_eq.symm, each⟩

/-- The third parser would raise a fault, but the second one does not match and nothing behind it is
run. -/
theorem sequence_stops_early :
    (sequence [char 'x', satisfy Char.isDigit, fun _ => .fault .wrongKind] (View.of "xy") =
        .noMatch ∧
      RunsFirst [char 'x', satisfy Char.isDigit, fun _ => .fault .wrongKind] (View.of "xy") 2) ∧
    ∃ rest, traverse char ['x', 'y'] (View.of "xyz") = .matched ['x', 'y'] rest ∧
      rest.text = "z" ∧
      List.Forall₂ (fun item value => (char item).Gives value) ['x', 'y'] ['x', 'y'] := by
  obtain ⟨rest, parsed, left⟩ : ∃ rest,
      traverse char ['x', 'y'] (View.of "xyz") = .matched ['x', 'y'] rest ∧ rest.text = "z" :=
    ⟨_, by cbv, by cbv⟩
  obtain ⟨_, _, _, _, traversed⟩ := sequence_left_to_right [] [] char ['x', 'y']
    Meanings.unreferenced [] (View.of "xyz")
  refine ⟨⟨by cbv, ?_⟩, rest, parsed, left, (traversed _ _ parsed).2⟩
  rw [RunsFirst]
  cbv

end Parser

end Descent
