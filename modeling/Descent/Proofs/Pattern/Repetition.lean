import Descent.Proofs.Parser.Repetition
import Descent.Proofs.Pattern.Outcomes
import Mathlib

/-!
What a repetition in a pattern collects: the matches that follow one another as long as each of them
consumes something, up to a view from which the element gets no further.
-/

namespace Descent

namespace Meanings

variable {κ : Type} {meanings : Meanings κ} {pattern element : Pattern κ} {view point rest : View}
variable {value : Value} {values : List Value} {reply : Reply Value} {cause : Fault}

def Stalls (meanings : Meanings κ) (pattern : Pattern κ) (point : View) : Prop :=
  meanings.Ends pattern point .noMatch ∨ ∃ value, meanings.Reads pattern point value point

theorem Stalls.eq_of_reads (stalls : meanings.Stalls pattern point)
    (reads : meanings.Reads pattern point value rest) : rest = point := by
  rcases stalls with refused | ⟨other, readsToo⟩
  · cases refused.unique reads
  · cases readsToo.unique reads
    rfl

/-- A run that ends where there is no way on stalls or raises a fault. A match that leaves as much as
there was leaves the same view. -/
theorem stalls_of_stuck (stuck : Stuck (meanings.Reads pattern) point)
    (ends : meanings.Ends pattern point reply) :
    meanings.Stalls pattern point ∨ ∃ cause, reply = .fault cause := by
  cases reply with
  | noMatch => exact .inl (.inl ends)
  | fault cause => exact .inr ⟨cause, rfl⟩
  | exhausted => exact absurd rfl ends.1
  | matched value rest =>
    have reaches : point.Reaches rest := Reads.reaches ends
    have length : rest.length = point.length :=
      Nat.le_antisymm reaches.length_le (Nat.le_of_not_lt (stuck value rest ends))
    obtain rfl := reaches.eq_of_length (.refl point) length
    exact .inl (.inr ⟨value, ends⟩)

/-- Any number of strides is taken with one bound on the entries. -/
theorem strides_settle (strides : Strides (meanings.Reads element) view values point) :
    ∃ fuel, ∀ more, fuel ≤ more →
      Strides (element.eval (meanings.enter more)).Reads view values point := by
  induction strides with
  | here => exact ⟨0, fun _ _ => .here⟩
  | on reads shorter _ ih =>
    obtain ⟨fuel, settled⟩ := Ends.settles reads
    obtain ⟨others, follow⟩ := ih
    refine ⟨max fuel others, fun more enough => .on ?_ shorter ?_⟩
    · exact settled more (Nat.le_trans (Nat.le_max_left _ _) enough)
    · exact follow more (Nat.le_trans (Nat.le_max_right _ _) enough)

theorem eval_many_of_strides {enter : κ → Parser Value}
    (strides : Strides (element.eval enter).Reads view values point) :
    (Pattern.many element).eval enter view = (Parser.many (element.eval enter) point).bind
      fun others rest => .matched (.list (values ++ others)) rest := by
  rw [Pattern.eval, Parser.map_apply, Parser.many_of_strides strides, Reply.bind_assoc]
  rfl

section Runs

variable (strides : Strides (meanings.Reads element) view values point)
include strides

theorem strides_at_once (ends : meanings.Ends pattern rest reply) :
    ∃ fuel, Strides (element.eval (meanings.enter fuel)).Reads view values point ∧
      pattern.eval (meanings.enter fuel) rest = reply := by
  obtain ⟨fuel, settled⟩ := strides_settle strides
  obtain ⟨more, settles⟩ := ends.settles
  exact ⟨max fuel more, settled _ (Nat.le_max_left _ _), settles _ (Nat.le_max_right _ _)⟩

theorem reads_many (stalls : meanings.Stalls element point) :
    meanings.Reads (.many element) view (.list values) point := by
  obtain ⟨last, ends, answer⟩ : ∃ last, meanings.Ends element point last ∧
      (last = .noMatch ∨ ∃ value, last = .matched value point) := by
    rcases stalls with refused | ⟨value, reads⟩
    · exact ⟨_, refused, .inl rfl⟩
    · exact ⟨_, reads, .inr ⟨value, rfl⟩⟩
  obtain ⟨fuel, taken, parsed⟩ := strides_at_once strides ends
  refine ⟨by simp, fuel, ?_⟩
  rw [eval_many_of_strides taken, Parser.many_apply, parsed]
  rcases answer with rfl | ⟨value, rfl⟩ <;> simp

theorem many_raises (raised : meanings.Ends element point (.fault cause)) :
    meanings.Ends (.many element) view (.fault cause) := by
  obtain ⟨fuel, taken, parsed⟩ := strides_at_once strides raised
  refine ⟨by simp, fuel, ?_⟩
  rw [eval_many_of_strides taken, Parser.many_apply, parsed]
  rfl

theorem ends_of_ends_many (ended : meanings.Ends (.many element) view reply) :
    ∃ last, meanings.Ends element point last := by
  obtain ⟨fuel, taken, parsed⟩ := strides_at_once strides ended
  refine ⟨element.eval (meanings.enter fuel) point, fun exhausted => ended.1 ?_, fuel, rfl⟩
  rw [← parsed, eval_many_of_strides taken, Parser.many_apply, exhausted]
  rfl

end Runs

/-- A repetition that ends has stridden to where it stalls, or to where its element raises a fault. -/
theorem many_ends (ended : meanings.Ends (.many element) view reply) :
    ∃ values point, Strides (meanings.Reads element) view values point ∧
      (meanings.Stalls element point ∧ reply = .matched (.list values) point ∨
        ∃ cause, meanings.Ends element point (.fault cause) ∧ reply = .fault cause) := by
  obtain ⟨values, point, strides, stuck⟩ := exists_strides (meanings.Reads element) view
  obtain ⟨last, ends⟩ := ends_of_ends_many strides ended
  refine ⟨values, point, strides, ?_⟩
  rcases stalls_of_stuck stuck ends with stalls | ⟨cause, rfl⟩
  · exact .inl ⟨stalls, ended.unique (reads_many strides stalls)⟩
  · exact .inr ⟨cause, ends, ended.unique (many_raises strides ends)⟩

theorem reads_many_iff :
    meanings.Reads (.many element) view value rest ↔ ∃ values, value = .list values ∧
      Strides (meanings.Reads element) view values rest ∧ meanings.Stalls element rest := by
  constructor
  · intro reads
    obtain ⟨values, point, strides, ⟨stalls, same⟩ | ⟨cause, _, same⟩⟩ := many_ends reads
    · cases same
      exact ⟨values, rfl, strides, stalls⟩
    · cases same
  · rintro ⟨values, rfl, strides, stalls⟩
    exact reads_many strides stalls

theorem many_raises_iff :
    meanings.Ends (.many element) view (.fault cause) ↔ ∃ values point,
      Strides (meanings.Reads element) view values point ∧
        meanings.Ends element point (.fault cause) := by
  constructor
  · intro ended
    obtain ⟨values, point, strides, ⟨_, same⟩ | ⟨_, raised, same⟩⟩ := many_ends ended
    · cases same
    · cases same
      exact ⟨values, point, strides, raised⟩
  · rintro ⟨values, point, strides, raised⟩
    exact many_raises strides raised

theorem many_settled (ended : ∀ values point, Strides (meanings.Reads element) view values point →
      ∃ reply, meanings.Ends element point reply) :
    (∃ value rest, meanings.Reads (.many element) view value rest) ∨
      ∃ cause, meanings.Ends (.many element) view (.fault cause) := by
  obtain ⟨values, point, strides, stuck⟩ := exists_strides (meanings.Reads element) view
  obtain ⟨last, ends⟩ := ended values point strides
  rcases stalls_of_stuck stuck ends with stalls | ⟨cause, rfl⟩
  · exact .inl ⟨_, _, reads_many strides stalls⟩
  · exact .inr ⟨cause, many_raises strides ends⟩

theorem many_again (reads : meanings.Reads (.many element) view value rest) :
    meanings.Reads (.many element) rest (.list []) rest := by
  obtain ⟨values, rfl, _, stalls⟩ := reads_many_iff.mp reads
  exact reads_many .here stalls

theorem many_many (reads : meanings.Reads (.many element) view (.list values) rest) :
    meanings.Reads (.many (.many element)) view
      (.list (if values = [] then [] else [.list values])) rest := by
  obtain ⟨_, same, strides, _⟩ := reads_many_iff.mp reads
  cases same
  have stalls : meanings.Stalls (.many element) rest := .inr ⟨_, many_again reads⟩
  cases strides with
  | here => exact reads_many .here stalls
  | @on _ value middle others _ taken shorter strides =>
    have less := strides.length_le
    exact reads_many (.on reads (by omega) .here) stalls

structure MaximalIteration (meanings : Meanings κ) (element : Pattern κ) (view : View) : Prop where
  /-- The matches are collected that follow one another, each consuming something, up to a view from
  which the element does not match or consumes nothing. -/
  matched_iff : ∀ value rest, meanings.Ends (.many element) view (.matched value rest) ↔
    ∃ values, value = .list values ∧ Strides (meanings.Reads element) view values rest ∧
      meanings.Stalls element rest
  fault_iff : ∀ cause, meanings.Ends (.many element) view (.fault cause) ↔
    ∃ values point, Strides (meanings.Reads element) view values point ∧
      meanings.Ends element point (.fault cause)
  /-- If the element ends wherever it is run, the repetition matches or raises a fault. -/
  settled : (∀ values point, Strides (meanings.Reads element) view values point →
      ∃ reply, meanings.Ends element point reply) →
    (∃ value rest, meanings.Ends (.many element) view (.matched value rest)) ∨
      ∃ cause, meanings.Ends (.many element) view (.fault cause)
  /-- Through calls without effects it is the same repetition, and calls that are counted are one
  more than the values. -/
  calls : ∀ fuel values rest,
    Parser.many (element.eval (meanings.enter fuel)) view = .matched values rest →
    Parser.manyThrough (m := Id) (element.eval (meanings.enter fuel)) #[] view =
        .matched values rest ∧
      (Parser.manyThrough (element.eval (meanings.enter fuel)).counted #[] view).run 0 =
        (.matched values rest, values.length + 1) ∧
      values.length + 1 ≤ view.length + 1
  /-- It is an element that consumes something with the same repetition behind it, or nothing. -/
  unfolds : ∀ fuel, Parser.many (element.eval (meanings.enter fuel)) =
    (Parser.lift2 (fun value values => .ok (value :: values))
      (element.eval (meanings.enter fuel)).consuming
      (Parser.many (element.eval (meanings.enter fuel)))).alt (Parser.just [])
  /-- What it leaves holds no further element. -/
  again : ∀ value rest, meanings.Ends (.many element) view (.matched value rest) →
    meanings.Ends (.many element) rest (.matched (.list []) rest)
  nested : ∀ values rest, meanings.Ends (.many element) view (.matched (.list values) rest) →
    meanings.Ends (.many (.many element)) view
      (.matched (.list (if values = [] then [] else [.list values])) rest)

theorem many_maximal (meanings : Meanings κ) (element : Pattern κ) (view : View) :
    meanings.MaximalIteration element view where
  matched_iff := fun _ _ => reads_many_iff
  fault_iff := fun _ => many_raises_iff
  settled := many_settled
  calls := by
    intro fuel values rest parsed
    have plain := Parser.manyThrough_pure (m := Id) (element.eval (meanings.enter fuel)) #[] view
    exact ⟨plain.trans parsed, Parser.many_calls parsed⟩
  unfolds := fun fuel => Parser.many_eq _
  again := fun _ _ => many_again
  nested := fun _ _ => many_many

/-- A run of digits may be empty, so that a repetition of such runs has one element and stops. -/
theorem many_maximal_span :
    ∃ found rest, unreferenced.Ends (.many (.span .digit)) (View.of "12ab")
        (.matched (.list [.view found]) rest) ∧ found.text = "12" ∧ rest.text = "ab" ∧
      unreferenced.Ends (.many (.span .digit)) rest (.matched (.list []) rest) ∧
      unreferenced.Ends (.many (.many (.span .digit))) (View.of "12ab")
        (.matched (.list [.list [.view found]]) rest) := by
  obtain ⟨found, rest, ends, taken, left⟩ : ∃ found rest,
      unreferenced.Ends (.many (.span .digit)) (View.of "12ab") (.matched (.list [.view found]) rest) ∧
        found.text = "12" ∧ rest.text = "ab" :=
    ⟨_, _, ⟨by simp, 0, by cbv⟩, by cbv, by cbv⟩
  have maximal := many_maximal unreferenced (.span .digit) (View.of "12ab")
  exact ⟨found, rest, ends, taken, left, maximal.again _ _ ends, maximal.nested _ _ ends⟩

end Meanings

end Descent
