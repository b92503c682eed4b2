import Descent.Proofs.Pattern.Repetition
import Mathlib

/-!
What a list with separators collects. Its first element may consume nothing, and each further one
comes behind a separator and gets on with it. What follows the last element is left as it is, a
separator that no element follows included.
-/

namespace Descent

namespace Meanings

variable {κ : Type} {meanings : Meanings κ} {separator element : Pattern κ}
variable {view point start rest : View} {value first : Value} {values : List Value}
variable {reply : Reply Value} {cause : Fault}

def Separated (meanings : Meanings κ) (separator element : Pattern κ) (view : View) (value : Value)
    (rest : View) : Prop :=
  ∃ gap middle, meanings.Reads separator view gap middle ∧ meanings.Reads element middle value rest

theorem reads_andThen : meanings.Reads (.andThen separator element) = meanings.Separated separator element := by
  funext view value rest
  simp only [Reads, ends_andThen_iff, Unmatched, Separated, eq_iff_iff]
  constructor
  · rintro (⟨_, unmatched⟩ | separated)
    · exact absurd rfl (unmatched value rest)
    · exact separated
  · exact .inr

theorem andThen_raises_iff :
    meanings.Ends (.andThen separator element) view (.fault cause) ↔
      meanings.Ends separator view (.fault cause) ∨
        ∃ gap middle, meanings.Reads separator view gap middle ∧
          meanings.Ends element middle (.fault cause) := by
  simp [ends_andThen_iff, Unmatched]

/-- A list is one element and a repetition of separator and element behind it, or nothing. -/
theorem eval_sepBy (enter : κ → Parser Value) :
    (Pattern.sepBy separator element).eval enter =
      (Pattern.alt (.lift2 .cons element (.many (.andThen separator element)))
        (.just (.list []))).eval enter := by
  funext view
  simp only [Pattern.eval, Parser.map_apply, Parser.sepBy, Parser.alt_apply, Parser.lift2_apply,
    Parser.just_apply]
  cases element.eval enter view with
  | noMatch => rfl
  | fault cause => rfl
  | exhausted => rfl
  | matched first start =>
    simp only [Reply.bind_matched]
    cases Parser.many ((separator.eval enter).andThen (element.eval enter)) start <;> rfl

theorem ends_sepBy_iff :
    meanings.Ends (.sepBy separator element) view reply ↔
      meanings.Ends element view .noMatch ∧ reply = .matched (.list []) view ∨
      (∃ cause, meanings.Ends element view (.fault cause) ∧ reply = .fault cause) ∨
      ∃ first start last, meanings.Reads element view first start ∧
        meanings.Ends (.many (.andThen separator element)) start last ∧
        reply = last.bind fun others rest => .deliver (Combine.cons.apply first others) rest := by
  have unfolded : meanings.Ends (.sepBy separator element) view reply ↔ meanings.Ends
      (.alt (.lift2 .cons element (.many (.andThen separator element))) (.just (.list []))) view reply := by
    simp only [Ends, eval_sepBy]
  rw [unfolded, ends_alt_iff, ends_just_iff, ends_pairs_iff (.lift2 _ _ _), ends_pairs_iff (.lift2 _ _ _)]
  constructor
  · rintro (⟨⟨ends, unmatched⟩ | some, answers⟩ | ⟨⟨refused, _⟩ | ⟨_, _, last, _, ends, same⟩, nothing⟩)
    · cases reply with
      | matched value rest => exact absurd rfl (unmatched value rest)
      | noMatch => exact absurd rfl answers
      | fault cause => exact .inr (.inl ⟨cause, ends, rfl⟩)
      | exhausted => exact absurd rfl ends.1
    · exact .inr (.inr some)
    · exact .inl ⟨refused, nothing⟩
    · obtain ⟨values, point, _, ⟨_, rfl⟩ | ⟨cause, _, rfl⟩⟩ := many_ends ends
      · cases same
      · cases same
  · rintro (⟨refused, nothing⟩ | ⟨cause, raised, rfl⟩ | ⟨first, start, last, reads, ends, rfl⟩)
    · exact .inr ⟨.inl ⟨refused, by simp [Unmatched]⟩, nothing⟩
    · exact .inl ⟨.inl ⟨raised, by simp [Unmatched]⟩, by simp⟩
    · refine .inl ⟨.inr ⟨first, start, last, reads, ends, rfl⟩, ?_⟩
      obtain ⟨values, point, _, ⟨_, rfl⟩ | ⟨cause, _, rfl⟩⟩ := many_ends ends <;> simp

theorem reads_sepBy_iff :
    meanings.Reads (.sepBy separator element) view value rest ↔
      meanings.Ends element view .noMatch ∧ value = .list [] ∧ rest = view ∨
      ∃ first start others, meanings.Reads element view first start ∧
        Strides (meanings.Separated separator element) start others rest ∧
        meanings.Stalls (.andThen separator element) rest ∧ value = .list (first :: others) := by
  rw [Reads, ends_sepBy_iff, ← reads_andThen]
  constructor
  · rintro (⟨refused, same⟩ | ⟨_, _, same⟩ | ⟨first, start, last, reads, ends, same⟩)
    · cases same
      exact .inl ⟨refused, rfl, rfl⟩
    · cases same
    · obtain ⟨others, point, strides, ⟨stalls, rfl⟩ | ⟨_, _, rfl⟩⟩ := many_ends ends
      · cases same
        exact .inr ⟨first, start, others, reads, strides, stalls, rfl⟩
      · cases same
  · rintro (⟨refused, rfl, rfl⟩ | ⟨first, start, others, reads, strides, stalls, rfl⟩)
    · exact .inl ⟨refused, rfl⟩
    · exact .inr (.inr ⟨first, start, _, reads, reads_many strides stalls, rfl⟩)

theorem sepBy_raises_iff :
    meanings.Ends (.sepBy separator element) view (.fault cause) ↔
      meanings.Ends element view (.fault cause) ∨
      ∃ first start others point, meanings.Reads element view first start ∧
        Strides (meanings.Separated separator element) start others point ∧
        meanings.Ends (.andThen separator element) point (.fault cause) := by
  rw [ends_sepBy_iff, ← reads_andThen]
  constructor
  · rintro (⟨_, same⟩ | ⟨_, raised, same⟩ | ⟨first, start, last, reads, ends, same⟩)
    · cases same
    · cases same
      exact .inl raised
    · obtain ⟨others, point, strides, ⟨_, rfl⟩ | ⟨_, raised, rfl⟩⟩ := many_ends ends
      · cases same
      · cases same
        exact .inr ⟨first, start, others, point, reads, strides, raised⟩
  · rintro (raised | ⟨first, start, others, point, reads, strides, raised⟩)
    · exact .inr (.inl ⟨cause, raised, rfl⟩)
    · exact .inr (.inr ⟨first, start, _, reads, many_raises strides raised, rfl⟩)

theorem andThen_settled (ended : ∃ reply, meanings.Ends separator point reply)
    (follow : ∀ gap middle, meanings.Reads separator point gap middle →
      ∃ reply, meanings.Ends element middle reply) :
    ∃ reply, meanings.Ends (.andThen separator element) point reply := by
  obtain ⟨reply, ends⟩ := ended
  cases reply with
  | matched gap middle =>
    obtain ⟨last, further⟩ := follow gap middle ends
    exact ⟨last, ends_andThen_iff.mpr (.inr ⟨gap, middle, ends, further⟩)⟩
  | noMatch => exact ⟨_, ends_andThen_iff.mpr (.inl ⟨ends, by simp [Unmatched]⟩)⟩
  | fault cause => exact ⟨_, ends_andThen_iff.mpr (.inl ⟨ends, by simp [Unmatched]⟩)⟩
  | exhausted => exact absurd rfl ends.1

theorem sepBy_settled (ended : ∃ reply, meanings.Ends element view reply)
    (others : ∀ first start, meanings.Reads element view first start → ∀ values point,
      Strides (meanings.Separated separator element) start values point →
        ∃ reply, meanings.Ends (.andThen separator element) point reply) :
    (∃ value rest, meanings.Ends (.sepBy separator element) view (.matched value rest)) ∨
      ∃ cause, meanings.Ends (.sepBy separator element) view (.fault cause) := by
  obtain ⟨reply, ends⟩ := ended
  cases reply with
  | noMatch => exact .inl ⟨_, _, reads_sepBy_iff.mpr (.inl ⟨ends, rfl, rfl⟩)⟩
  | fault cause => exact .inr ⟨cause, sepBy_raises_iff.mpr (.inl ends)⟩
  | exhausted => exact absurd rfl ends.1
  | matched first start =>
    have further := others first start ends
    rw [← reads_andThen] at further
    rcases many_settled further with ⟨value, rest, reads⟩ | ⟨cause, raised⟩
    · obtain ⟨values, rfl, _⟩ := reads_many_iff.mp reads
      exact .inl ⟨_, _, ends_sepBy_iff.mpr (.inr (.inr ⟨first, start, _, ends, reads, rfl⟩))⟩
    · exact .inr ⟨cause, ends_sepBy_iff.mpr (.inr (.inr ⟨first, start, _, ends, raised, rfl⟩))⟩

structure MaximalList (meanings : Meanings κ) (separator element : Pattern κ) (view : View) : Prop where
  /-- Without a first element the list is empty. The first one is kept even if it consumes nothing,
  and the others are those that follow one another behind separators, each getting on, up to a view
  from which separator and element do not match or consume nothing. -/
  matched_iff : ∀ value rest, meanings.Ends (.sepBy separator element) view (.matched value rest) ↔
    meanings.Ends element view .noMatch ∧ value = .list [] ∧ rest = view ∨
    ∃ first start others, meanings.Ends element view (.matched first start) ∧
      Strides (meanings.Separated separator element) start others rest ∧
      meanings.Stalls (.andThen separator element) rest ∧ value = .list (first :: others)
  fault_iff : ∀ cause, meanings.Ends (.sepBy separator element) view (.fault cause) ↔
    meanings.Ends element view (.fault cause) ∨
    ∃ first start others point, meanings.Ends element view (.matched first start) ∧
      Strides (meanings.Separated separator element) start others point ∧
      (meanings.Ends separator point (.fault cause) ∨
        ∃ gap middle, meanings.Ends separator point (.matched gap middle) ∧
          meanings.Ends element middle (.fault cause))
  /-- If separator and element end wherever they are run, the list matches or raises a fault. -/
  settled : (∃ reply, meanings.Ends element view reply) →
    (∀ first start, meanings.Ends element view (.matched first start) → ∀ values point,
      Strides (meanings.Separated separator element) start values point →
        (∃ reply, meanings.Ends separator point reply) ∧
        ∀ gap middle, meanings.Ends separator point (.matched gap middle) →
          ∃ reply, meanings.Ends element middle reply) →
    (∃ value rest, meanings.Ends (.sepBy separator element) view (.matched value rest)) ∨
      ∃ cause, meanings.Ends (.sepBy separator element) view (.fault cause)
  /-- What remains begins where the last element ended, and from there a separator with an element
  makes no progress. -/
  last_ends : ∀ values last rest,
    meanings.Ends (.sepBy separator element) view (.matched (.list values) rest) →
    values.getLast? = some last →
    (∃ start, meanings.Ends element start (.matched last rest)) ∧
      ∀ value left, meanings.Ends (.andThen separator element) rest (.matched value left) → left = rest

theorem sepBy_last_ends {last : Value} (reads : meanings.Reads (.sepBy separator element) view (.list values) rest)
    (final : values.getLast? = some last) :
    (∃ start, meanings.Reads element start last rest) ∧ meanings.Stalls (.andThen separator element) rest := by
  obtain ⟨_, same, _⟩ | ⟨first, start, others, opens, strides, stalls, same⟩ := reads_sepBy_iff.mp reads
  · cases same
    cases final
  · cases same
    refine ⟨?_, stalls⟩
    cases strides with
    | here =>
      cases final
      exact ⟨view, opens⟩
    | on separated shorter strides =>
      rw [List.getLast?_cons_cons] at final
      obtain ⟨before, gap, middle, _, follows⟩ := (Strides.on separated shorter strides).last_ends final
      exact ⟨middle, follows⟩

theorem sepBy_maximal (meanings : Meanings κ) (separator element : Pattern κ) (view : View) :
    meanings.MaximalList separator element view where
  matched_iff := fun _ _ => reads_sepBy_iff
  fault_iff := by
    intro cause
    simp only [sepBy_raises_iff, andThen_raises_iff]
    rfl
  settled := fun ended others => sepBy_settled ended fun first start opens values point strides =>
    have ⟨separators, elements⟩ := others first start opens values point strides
    andThen_settled separators elements
  last_ends := by
    intro values last rest reads final
    obtain ⟨before, stalls⟩ := sepBy_last_ends reads final
    exact ⟨before, fun value left => stalls.eq_of_reads⟩

/-- The last comma is given back, and a first comma is not even looked at. -/
theorem sepBy_maximal_comma :
    (∃ rest, unreferenced.Ends (.sepBy (.char ",") (.satisfy .digit)) (View.of "1,2,x")
        (.matched (.list [.text "1", .text "2"]) rest) ∧ rest.text = ",x" ∧
      ∀ value left, unreferenced.Ends (.andThen (.char ",") (.satisfy .digit)) rest
        (.matched value left) → left = rest) ∧
    unreferenced.Ends (.sepBy (.char ",") (.satisfy .digit)) (View.of ",1")
      (.matched (.list []) (View.of ",1")) := by
  obtain ⟨rest, ends, left⟩ : ∃ rest, unreferenced.Ends (.sepBy (.char ",") (.satisfy .digit))
      (View.of "1,2,x") (.matched (.list [.text "1", .text "2"]) rest) ∧ rest.text = ",x" :=
    ⟨_, ⟨by simp, 0, by cbv⟩, by cbv⟩
  have refused : unreferenced.Ends (.satisfy .digit) (View.of ",1") .noMatch := ⟨by simp, 0, by cbv⟩
  have behind := sepBy_maximal unreferenced (.char ",") (.satisfy .digit) (View.of "1,2,x")
  have before := sepBy_maximal unreferenced (.char ",") (.satisfy .digit) (View.of ",1")
  exact ⟨⟨rest, ends, left, (behind.last_ends _ _ _ ends rfl).2⟩,
    (before.matched_iff _ _).mpr (.inl ⟨refused, rfl, rfl⟩)⟩

end Meanings

end Descent
