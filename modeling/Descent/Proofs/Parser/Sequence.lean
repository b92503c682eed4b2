import Descent.Proofs.Parser.Containment
import Descent.Proofs.Parser.Repetition
import Mathlib

/-!
How a sequence runs: its parsers follow one another from left to right, each of them from where the
one before left off, and the first one that does not match ends the whole. None behind it is run.
-/

namespace Descent

variable {α β γ ι : Type}

inductive Threads (step : ι → View → α → View → Prop) : List ι → View → List α → View → Prop
  | nil {view} : Threads step [] view [] view
  | cons {item items view value middle values rest} : step item view value middle →
      Threads step items middle values rest →
      Threads step (item :: items) view (value :: values) rest

section Steps

variable {step : ι → View → α → View → Prop} {items others : List ι} {view rest : View}
variable {values : List α}

theorem Threads.forall₂ (threads : Threads step items view values rest) :
    List.Forall₂ (fun item value => ∃ start stop, step item start value stop) items values := by
  induction threads with
  | nil => exact .nil
  | cons taken _ ih => exact .cons ⟨_, _, taken⟩ ih

theorem threads_append_iff :
    Threads step (items ++ others) view values rest ↔ ∃ firsts middle lasts,
      values = firsts ++ lasts ∧ Threads step items view firsts middle ∧
        Threads step others middle lasts rest := by
  constructor
  · intro threads
    induction items generalizing view values with
    | nil => exact ⟨[], view, values, rfl, .nil, threads⟩
    | cons item items ih =>
      cases threads with
      | cons taken follow =>
        obtain ⟨firsts, middle, lasts, rfl, front, back⟩ := ih follow
        exact ⟨_ :: firsts, middle, lasts, rfl, .cons taken front, back⟩
  · rintro ⟨firsts, middle, lasts, rfl, front, back⟩
    induction front with
    | nil => exact back
    | cons taken _ ih => exact .cons taken (ih back)

theorem threads_map {f : ι → β} {step : β → View → α → View → Prop} :
    Threads step (items.map f) view values rest ↔
      Threads (fun item => step (f item)) items view values rest := by
  induction items generalizing view values with
  | nil =>
    constructor <;> rintro ⟨⟩ <;> exact .nil
  | cons item items ih =>
    constructor
    · intro threads
      cases threads with
      | cons taken follow => exact .cons taken (ih.mp follow)
    · intro threads
      cases threads with
      | cons taken follow => exact .cons taken (ih.mpr follow)

/-- The steps go through all the items, or up to the first one for which there is no step. -/
theorem threads_or_stops (step : ι → View → α → View → Prop) (items : List ι) (view : View) :
    (∃ values rest, Threads step items view values rest) ∨
      ∃ before item others values point, items = before ++ item :: others ∧
        Threads step before view values point ∧ ∀ value rest, ¬step item point value rest := by
  induction items generalizing view with
  | nil => exact .inl ⟨[], view, .nil⟩
  | cons item items ih =>
    by_cases taken : ∃ value middle, step item view value middle
    · obtain ⟨value, middle, taken⟩ := taken
      rcases ih middle with ⟨values, rest, threads⟩ |
        ⟨before, last, others, values, point, rfl, threads, stops⟩
      · exact .inl ⟨value :: values, rest, .cons taken threads⟩
      · exact .inr ⟨item :: before, last, others, value :: values, point, rfl,
          .cons taken threads, stops⟩
    · refine .inr ⟨[], item, items, [], view, rfl, .nil, fun value middle found => ?_⟩
      exact taken ⟨value, middle, found⟩

end Steps

namespace Reply

inductive FailsAs : Reply α → Reply β → Prop
  | noMatch : FailsAs noMatch noMatch
  | fault (cause) : FailsAs (fault cause) (fault cause)
  | exhausted : FailsAs exhausted exhausted

theorem FailsAs.bind_eq {reply : Reply α} {ending : Reply β} (fails : reply.FailsAs ending)
    (next : α → View → Reply β) : reply.bind next = ending := by
  cases fails <;> rfl

/-- The reason can be passed on in a reply of any type. -/
theorem FailsAs.through {reply : Reply α} {ending : Reply β} (fails : reply.FailsAs ending)
    (γ : Type) : ∃ middle : Reply γ, reply.FailsAs middle ∧
      ∀ next : γ → View → Reply β, middle.bind next = ending := by
  cases fails with
  | noMatch => exact ⟨_, .noMatch, fun _ => rfl⟩
  | fault cause => exact ⟨_, .fault cause, fun _ => rfl⟩
  | exhausted => exact ⟨_, .exhausted, fun _ => rfl⟩

theorem exists_failsAs {reply : Reply α} (unmatched : ∀ value rest, reply ≠ matched value rest)
    (β : Type) : ∃ ending : Reply β, reply.FailsAs ending := by
  cases reply with
  | matched value rest => exact absurd rfl (unmatched value rest)
  | noMatch => exact ⟨_, .noMatch⟩
  | fault cause => exact ⟨_, .fault cause⟩
  | exhausted => exact ⟨_, .exhausted⟩

end Reply

namespace Parser

variable {parsers before others : List (Parser α)} {parser : Parser α} {view point rest : View}
variable {values : List α} {ending : Reply (List α)}

theorem sequence_eq_matched_iff :
    sequence parsers view = .matched values rest ↔ Threads Reads parsers view values rest := by
  induction parsers generalizing view values with
  | nil =>
    constructor
    · intro parsed
      cases parsed
      exact .nil
    · rintro ⟨⟩
      rfl
  | cons parser parsers ih =>
    rw [sequence_cons, Reply.bind_eq_matched]
    constructor
    · rintro ⟨value, middle, parsed, follow⟩
      obtain ⟨others, last, read, same⟩ := Reply.bind_eq_matched.mp follow
      cases same
      exact .cons parsed (ih.mp read)
    · intro threads
      cases threads with
      | cons parsed follow =>
        refine ⟨_, _, parsed, ?_⟩
        rw [ih.mpr follow, Reply.bind_matched]

/-- Two sequences, one behind the other, with their values joined. -/
theorem sequence_append (first second : List (Parser α)) :
    sequence (first ++ second) =
      lift2 (fun values others => .ok (values ++ others)) (sequence first) (sequence second) := by
  funext view
  rw [lift2_apply]
  induction first generalizing view with
  | nil => simp [sequence_nil, just_apply]
  | cons parser parsers ih =>
    simp only [List.cons_append, sequence_cons, ih, Reply.bind_assoc, Reply.bind_matched,
      Reply.deliver_ok]

theorem sequence_fails (threads : Threads Reads before view values point)
    (fails : (parser point).FailsAs ending) :
    sequence (before ++ parser :: others) view = ending := by
  rw [sequence_append, lift2_apply, sequence_eq_matched_iff.mpr threads, Reply.bind_matched,
    sequence_cons, Reply.bind_assoc]
  exact fails.bind_eq _

section Runs

variable {m : Type → Type} [Monad m]

def lift2Through (f : α → β → Except Fault γ) (first : View → m (Reply α))
    (second : View → m (Reply β)) (view : View) : m (Reply γ) := do
  match ← first view with
  | .matched left middle =>
    return (← second middle).bind fun right rest => .deliver (f left right) rest
  | .noMatch => return .noMatch
  | .fault cause => return .fault cause
  | .exhausted => return .exhausted

def collectThrough (calls : List (View → m (Reply α))) : View → m (Reply (Array α)) :=
  calls.foldl (lift2Through fun values value => .ok (values.push value))
    fun view => return .matched #[] view

/-- The sequence of parsers that may have effects, a record of their runs among them. -/
def sequenceThrough (calls : List (View → m (Reply α))) (view : View) : m (Reply (List α)) :=
  return (← collectThrough calls view).bind fun values rest => .matched values.toList rest

theorem lift2Through_pure [LawfulMonad m] (f : α → β → Except Fault γ) (first : Parser α)
    (second : Parser β) :
    lift2Through (m := m) f (fun view => pure (first view)) (fun view => pure (second view)) =
      fun view => pure (lift2 f first second view) := by
  funext view
  rw [lift2Through, pure_bind, lift2_apply]
  cases first view with
  | matched left middle => simp
  | noMatch => rfl
  | fault cause => rfl
  | exhausted => rfl

theorem foldl_lift2Through_pure [LawfulMonad m] (f : β → α → Except Fault β)
    (parsers : List (Parser α)) (before : Parser β) :
    (parsers.map fun parser view => pure (parser view)).foldl (lift2Through (m := m) f)
        (fun view => pure (before view)) =
      fun view => pure (parsers.foldl (lift2 f) before view) := by
  induction parsers generalizing before with
  | nil => rfl
  | cons parser parsers ih =>
    rw [List.map_cons, List.foldl_cons, lift2Through_pure, ih]
    rfl

/-- Without effects it is the same sequence. -/
theorem sequenceThrough_pure [LawfulMonad m] (parsers : List (Parser α)) (view : View) :
    sequenceThrough (m := m) (parsers.map fun parser view => pure (parser view)) view =
      pure (sequence parsers view) := by
  have collected := foldl_lift2Through_pure (m := m)
    (fun (values : Array α) value => .ok (values.push value)) parsers (just #[])
  rw [sequenceThrough, collectThrough]
  simp only [just_apply] at collected
  rw [collected, pure_bind]
  rfl

theorem collectThrough_concat (calls : List (View → m (Reply α))) (call : View → m (Reply α)) :
    collectThrough (calls ++ [call]) =
      lift2Through (fun values value => .ok (values.push value)) (collectThrough calls) call := by
  rw [collectThrough, List.foldl_append]
  rfl

def noted (number : Nat) (parser : Parser α) (view : View) : StateM (List Nat) (Reply α) := do
  modify (· ++ [number])
  return parser view

theorem run_lift2Through_noted (f : β → α → Except Fault γ)
    (first : View → StateM (List Nat) (Reply β)) (number : Nat) (parser : Parser α) (view : View)
    (log : List Nat) :
    (lift2Through f first (parser.noted number) view).run log = match (first view).run log with
      | (.matched left middle, later) =>
        ((parser middle).bind fun right rest => .deliver (f left right) rest, later ++ [number])
      | (.noMatch, later) => (.noMatch, later)
      | (.fault cause, later) => (.fault cause, later)
      | (.exhausted, later) => (.exhausted, later) := by
  rw [lift2Through, StateT.run_bind]
  rcases (first view).run log with ⟨_ | _ | _ | _, later⟩ <;> rfl

theorem run_collectThrough_of_threads (threads : Threads Reads parsers view values rest) :
    (collectThrough (parsers.mapIdx noted) view).run [] =
      (.matched values.toArray rest, List.range parsers.length) := by
  -- The sequence is built from the left, so the last parser is taken off.
  induction parsers using List.reverseRecOn generalizing values rest with
  | nil =>
    cases threads
    rfl
  | append_singleton parsers parser ih =>
    obtain ⟨firsts, middle, lasts, rfl, front, back⟩ := threads_append_iff.mp threads
    obtain ⟨value, rfl, parsed⟩ : ∃ value, lasts = [value] ∧
        parser middle = .matched value rest := by
      cases back with
      | cons parsed none =>
        cases none
        exact ⟨_, rfl, parsed⟩
    rw [List.mapIdx_concat, collectThrough_concat, run_lift2Through_noted, ih front]
    simp [parsed, List.range_succ]

theorem run_collectThrough_of_fails {ending : Reply (Array α)}
    (threads : Threads Reads before view values point) (fails : (parser point).FailsAs ending) :
    (collectThrough ((before ++ parser :: others).mapIdx noted) view).run [] =
      (ending, List.range (before.length + 1)) := by
  induction others using List.reverseRecOn with
  | nil =>
    rw [List.mapIdx_concat, collectThrough_concat, run_lift2Through_noted,
      run_collectThrough_of_threads threads, List.range_succ]
    simp only [fails.bind_eq]
  | append_singleton others last ih =>
    rw [← List.cons_append, ← List.append_assoc, List.mapIdx_concat, collectThrough_concat,
      run_lift2Through_noted, ih]
    generalize parser point = reply at fails
    cases fails <;> rfl

def RunsFirst (parsers : List (Parser α)) (view : View) (count : Nat) : Prop :=
  (sequenceThrough (parsers.mapIdx noted) view).run [] = (sequence parsers view, List.range count)

theorem runsFirst_of_threads (threads : Threads Reads parsers view values rest) :
    RunsFirst parsers view parsers.length := by
  rw [RunsFirst, sequenceThrough, StateT.run_bind, run_collectThrough_of_threads threads,
    sequence_eq_matched_iff.mpr threads]
  rfl

theorem runsFirst_of_fails (threads : Threads Reads before view values point)
    (fails : (parser point).FailsAs ending) :
    RunsFirst (before ++ parser :: others) view (before.length + 1) := by
  obtain ⟨collected, failsToo, passedOn⟩ := fails.through (Array α)
  rw [RunsFirst, sequenceThrough, StateT.run_bind, run_collectThrough_of_fails threads failsToo,
    sequence_fails threads fails, ← passedOn fun values rest => .matched values.toList rest]
  rfl

end Runs

structure LeftToRight (parsers : List (Parser α)) (view : View) : Prop where
  /-- If all of them match, one after the other, the values are collected in this order. -/
  matched_iff : ∀ values rest, sequence parsers view = .matched values rest ↔
    Threads Reads parsers view values rest
  /-- Otherwise there is a first one that does not match where those before it lead. The sequence
  ends as it does, and nothing behind it is run. -/
  settled : (∃ values rest, Threads Reads parsers view values rest ∧
      RunsFirst parsers view parsers.length) ∨
    ∃ before parser others values point, parsers = before ++ parser :: others ∧
      Threads Reads before view values point ∧ (parser point).FailsAs (sequence parsers view) ∧
      RunsFirst parsers view (before.length + 1)
  /-- With parsers that have no effects the recorded runs are the sequence itself. -/
  plain : sequenceThrough (m := Id) parsers view = sequence parsers view

theorem leftToRight (parsers : List (Parser α)) (view : View) : LeftToRight parsers view where
  matched_iff := fun _ _ => sequence_eq_matched_iff
  settled := by
    rcases threads_or_stops Reads parsers view with ⟨values, rest, threads⟩ |
      ⟨before, parser, others, values, point, rfl, threads, stops⟩
    · exact .inl ⟨values, rest, threads, runsFirst_of_threads threads⟩
    · obtain ⟨ending, fails⟩ := Reply.exists_failsAs stops (List α)
      refine .inr ⟨before, parser, others, values, point, rfl, threads, ?_, ?_⟩
      · rwa [sequence_fails threads fails]
      · exact runsFirst_of_fails threads fails
  plain := by
    have plain := sequenceThrough_pure (m := Id) parsers view
    rwa [show (parsers.map fun parser view => (pure (parser view) : Id _)) = parsers from
      List.map_id _] at plain

theorem traverse_eq_matched_iff {f : ι → Parser α} {items : List ι} :
    traverse f items view = .matched values rest ↔
      Threads (fun item => (f item).Reads) items view values rest := by
  rw [traverse, sequence_eq_matched_iff, threads_map]

end Parser

end Descent
