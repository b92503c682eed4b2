import Descent.Proofs.Parser.Equations
import Mathlib

/-!
How a repetition runs: it strides over the view as long as its element matches and leaves less than
there was, and where that ends it ends as the element does there. Each stride is one call of the
element, and one more finds the end.
-/

namespace Descent

variable {α : Type}

inductive Strides (step : View → α → View → Prop) : View → List α → View → Prop
  | here {view} : Strides step view [] view
  | on {view value middle values rest} : step view value middle → middle.length < view.length →
      Strides step middle values rest → Strides step view (value :: values) rest

def Stuck (step : View → α → View → Prop) (point : View) : Prop :=
  ∀ value rest, step point value rest → ¬rest.length < point.length

section Steps

variable {step : View → α → View → Prop} {view rest : View} {values : List α}

theorem Strides.length_le (strides : Strides step view values rest) :
    values.length + rest.length ≤ view.length := by
  induction strides with
  | here => simp
  | on _ shorter _ ih =>
    rw [List.length_cons]
    omega

theorem Strides.last_ends {last : α} (strides : Strides step view values rest)
    (final : values.getLast? = some last) : ∃ start, step start last rest := by
  induction strides with
  | here => cases final
  | @on view value middle values rest taken _ others ih =>
    cases others with
    | here =>
      cases final
      exact ⟨view, taken⟩
    | on => exact ih (by rwa [List.getLast?_cons_cons] at final)

theorem exists_strides (step : View → α → View → Prop) (view : View) :
    ∃ values rest, Strides step view values rest ∧ Stuck step rest := by
  induction length : view.length using Nat.strongRecOn generalizing view with
  | ind count ih =>
    by_cases stuck : Stuck step view
    · exact ⟨[], view, .here, stuck⟩
    · simp only [Stuck, not_forall, not_not] at stuck
      obtain ⟨value, middle, taken, shorter⟩ := stuck
      obtain ⟨values, rest, strides, ends⟩ := ih _ (length ▸ shorter) middle rfl
      exact ⟨value :: values, rest, .on taken shorter strides, ends⟩

end Steps

namespace Parser

def Reads (parser : Parser α) (view : View) (value : α) (rest : View) : Prop :=
  parser view = .matched value rest

variable {element : Parser α} {view point : View} {values : List α}

theorem many_of_strides (strides : Strides element.Reads view values point) :
    many element view = (many element point).bind fun others rest =>
      .matched (values ++ others) rest := by
  induction strides with
  | here => simp
  | on parsed shorter _ ih =>
    rw [many_apply, parsed]
    simp only [shorter, if_true, ih, Reply.bind_assoc, Reply.bind_matched, List.cons_append]

theorem many_of_stuck (stuck : Stuck element.Reads point) :
    many element point = match element point with
      | .fault cause => .fault cause
      | .exhausted => .exhausted
      | _ => .matched [] point := by
  rw [many_apply]
  cases parsed : element point with
  | matched value rest => exact if_neg (stuck value rest parsed)
  | noMatch => rfl
  | fault cause => rfl
  | exhausted => rfl

theorem Repeats.strides {rest : View} (run : Repeats element view values rest) :
    Strides element.Reads view values rest ∧ Stuck element.Reads rest := by
  induction run with
  | stops fails =>
    refine ⟨.here, fun value rest parsed => ?_⟩
    cases fails.symm.trans parsed
  | stalls found stuck =>
    refine ⟨.here, fun value rest parsed => ?_⟩
    cases found.symm.trans parsed
    exact stuck
  | goesOn parsed shorter _ ih => exact ⟨.on parsed shorter ih.1, ih.2⟩

theorem many_ne_noMatch (element : Parser α) (view : View) : many element view ≠ .noMatch := by
  obtain ⟨values, point, strides, stuck⟩ := exists_strides element.Reads view
  rw [many_of_strides strides, many_of_stuck stuck]
  cases element point <;> simp

def consuming (parser : Parser α) : Parser α :=
  fun view => match parser view with
    | .matched value rest => if rest.length < view.length then .matched value rest else .noMatch
    | reply => reply

/-- A repetition is one element that consumes something and a repetition behind it, or nothing. -/
theorem many_eq (element : Parser α) :
    many element = (lift2 (fun value values => .ok (value :: values)) element.consuming
      (many element)).alt (just []) := by
  funext view
  rw [many_apply]
  cases parsed : element view with
  | noMatch => simp only [alt, lift2_apply, consuming, parsed, Reply.bind_noMatch, just_apply]
  | fault cause => simp only [alt, lift2_apply, consuming, parsed, Reply.bind_fault]
  | exhausted => simp only [alt, lift2_apply, consuming, parsed, Reply.bind_exhausted]
  | matched value rest =>
    by_cases shorter : rest.length < view.length
    · rw [alt_of_ne_noMatch]
      · simp only [lift2_apply, consuming, parsed, shorter, if_true, Reply.bind_matched, Reply.deliver_ok]
      · simp [lift2_apply, consuming, parsed, shorter, many_ne_noMatch]
    · simp only [alt, lift2_apply, consuming, parsed, shorter, if_false, Reply.bind_noMatch, just_apply]

section Calls

/-- The repetition of an element that is run by `call`, which may keep a record of its calls. -/
def manyThrough {m : Type → Type} [Monad m] (call : View → m (Reply α)) (values : Array α)
    (view : View) : m (Reply (List α)) := do
  match ← call view with
  | .matched value rest =>
    if rest.length < view.length then manyThrough call (values.push value) rest
    else return .matched values.toList view
  | .noMatch => return .matched values.toList view
  | .fault cause => return .fault cause
  | .exhausted => return .exhausted
termination_by view.length

def counted (parser : Parser α) (view : View) : StateM Nat (Reply α) := do
  modify (· + 1)
  return parser view

/-- Calls without effects leave the repetition as it is. -/
theorem manyThrough_pure {m : Type → Type} [Monad m] [LawfulMonad m] (element : Parser α)
    (values : Array α) (view : View) :
    manyThrough (m := m) (fun view => pure (element view)) values view =
      pure (manyAfter element values view) := by
  fun_induction manyAfter element values view with
  | case1 values view value rest parsed shorter ih =>
    rw [manyThrough, pure_bind, parsed]
    simp only [shorter, if_true, ih]
  | case2 values view value rest parsed stuck =>
    rw [manyThrough, pure_bind, parsed]
    simp only [stuck, if_false]
  | case3 values view fails => rw [manyThrough, pure_bind, fails]
  | case4 values view cause raised => rw [manyThrough, pure_bind, raised]
  | case5 values view exhausted => rw [manyThrough, pure_bind, exhausted]

theorem run_manyThrough_counted (element : Parser α) (values : Array α) (view : View) (count : Nat) :
    (manyThrough element.counted values view).run count = match element view with
      | .matched value rest =>
        if rest.length < view.length then
          (manyThrough element.counted (values.push value) rest).run (count + 1)
        else (.matched values.toList view, count + 1)
      | .noMatch => (.matched values.toList view, count + 1)
      | .fault cause => (.fault cause, count + 1)
      | .exhausted => (.exhausted, count + 1) := by
  rw [manyThrough]
  simp only [counted, StateT.run_bind, StateT.run_modify, StateT.run_pure, pure_bind]
  cases element view with
  | matched value rest =>
    dsimp only
    split <;> rfl
  | noMatch => rfl
  | fault cause => rfl
  | exhausted => rfl

/-- The element is called once for each stride and once more where the last one ends. -/
theorem manyThrough_counted (strides : Strides element.Reads view values point)
    (stuck : Stuck element.Reads point) (before : Array α) (count : Nat) :
    (manyThrough element.counted before view).run count =
      (manyAfter element before view, count + (values.length + 1)) := by
  induction strides generalizing before count with
  | @here view =>
    rw [run_manyThrough_counted, manyAfter]
    cases parsed : element view with
    | matched value rest =>
      simp only [stuck value rest parsed, if_false]
      rfl
    | noMatch => rfl
    | fault cause => rfl
    | exhausted => rfl
  | @on view value middle values rest parsed shorter _ ih =>
    rw [run_manyThrough_counted, manyAfter, parsed]
    simp only [shorter, if_true, List.length_cons]
    rw [ih stuck, Nat.add_assoc, Nat.add_comm 1]

theorem many_calls {rest : View} (parsed : many element view = .matched values rest) :
    (manyThrough element.counted #[] view).run 0 = (.matched values rest, values.length + 1) ∧
      values.length + 1 ≤ view.length + 1 := by
  obtain ⟨strides, stuck⟩ := (repeats_of_many parsed).strides
  have bound := strides.length_le
  have counted := manyThrough_counted strides stuck #[] 0
  rw [Nat.zero_add, ← many, parsed] at counted
  exact ⟨counted, by omega⟩

end Calls

end Parser

end Descent
