import Descent.Parser.Character
import Descent.Proofs.View.Split

/-!
What each parser answers, in terms of the answers of its parts. Repetition and sequences, which
collect their values in arrays, are brought into the form of a recursion on lists.
-/

namespace Descent

namespace Reply

variable {α β γ : Type}

@[simp] theorem bind_matched (value : α) (rest : View) (next : α → View → Reply β) :
    (matched value rest).bind next = next value rest := rfl

@[simp] theorem bind_noMatch (next : α → View → Reply β) : noMatch.bind next = noMatch := rfl

@[simp] theorem bind_fault (cause : Fault) (next : α → View → Reply β) :
    (fault cause).bind next = fault cause := rfl

@[simp] theorem bind_exhausted (next : α → View → Reply β) :
    exhausted.bind next = exhausted := rfl

@[simp] theorem deliver_ok (value : α) (rest : View) : deliver (.ok value) rest = matched value rest :=
  rfl

@[simp] theorem deliver_error (cause : Fault) (rest : View) :
    (deliver (.error cause) rest : Reply α) = fault cause := rfl

theorem bind_assoc (reply : Reply α) (next : α → View → Reply β) (last : β → View → Reply γ) :
    (reply.bind next).bind last = reply.bind fun value rest => (next value rest).bind last := by
  cases reply <;> rfl

@[simp] theorem bind_matched_right (reply : Reply α) : reply.bind matched = reply := by
  cases reply <;> rfl

@[simp] theorem bind_eq_matched {reply : Reply α} {next : α → View → Reply β} {result : β}
    {rest : View} :
    reply.bind next = matched result rest ↔
      ∃ value middle, reply = matched value middle ∧ next value middle = matched result rest := by
  cases reply <;> simp [and_assoc]

@[simp] theorem bind_eq_noMatch {reply : Reply α} {next : α → View → Reply β} :
    reply.bind next = noMatch ↔
      reply = noMatch ∨ ∃ value middle, reply = matched value middle ∧ next value middle = noMatch := by
  cases reply <;> simp [and_assoc]

theorem bind_eq_fault {reply : Reply α} {next : α → View → Reply β} {cause : Fault} :
    reply.bind next = fault cause ↔ reply = fault cause ∨
      ∃ value middle, reply = matched value middle ∧ next value middle = fault cause := by
  cases reply <;> simp [and_assoc]

@[simp] theorem deliver_eq_matched {result : Except Fault α} {value : α} {rest last : View} :
    deliver result rest = matched value last ↔ result = .ok value ∧ rest = last := by
  cases result <;> simp

@[simp] theorem deliver_ne_noMatch {result : Except Fault α} {rest : View} :
    deliver result rest ≠ noMatch := by
  cases result <;> simp

@[simp] theorem deliver_ne_exhausted {result : Except Fault α} {rest : View} :
    deliver result rest ≠ exhausted := by
  cases result <;> simp

theorem deliver_eq_fault {result : Except Fault α} {rest : View} {cause : Fault} :
    deliver result rest = fault cause ↔ result = .error cause := by
  cases result <;> simp

end Reply

namespace Parser

variable {α β γ ι : Type}

theorem just_apply (value : α) (view : View) : just value view = .matched value view := rfl

theorem map_apply (f : α → Except Fault β) (parser : Parser α) (view : View) :
    parser.map f view = (parser view).bind fun value rest => .deliver (f value) rest := rfl

theorem always_apply (value : β) (parser : Parser α) (view : View) :
    parser.always value view = (parser view).bind fun _ rest => .matched value rest := rfl

theorem ap_apply (function : Parser (α → Except Fault β)) (argument : Parser α) (view : View) :
    function.ap argument view = (function view).bind fun f middle =>
      (argument middle).bind fun value rest => .deliver (f value) rest := rfl

theorem andThen_apply (first : Parser α) (second : Parser β) (view : View) :
    first.andThen second view = (first view).bind fun _ middle => second middle := by
  simp only [andThen, ap_apply, map_apply, Reply.bind_assoc, Reply.deliver_ok, Reply.bind_matched,
    Reply.bind_matched_right]

theorem skip_apply (first : Parser α) (second : Parser β) (view : View) :
    first.skip second view = (first view).bind fun value middle =>
      (second middle).bind fun _ rest => .matched value rest := by
  simp only [skip, ap_apply, map_apply, Reply.bind_assoc, Reply.deliver_ok, Reply.bind_matched]

theorem lift2_apply (f : α → β → Except Fault γ) (first : Parser α) (second : Parser β)
    (view : View) :
    lift2 f first second view = (first view).bind fun left middle =>
      (second middle).bind fun right rest => .deliver (f left right) rest := by
  simp only [lift2, ap_apply, map_apply, Reply.bind_assoc, Reply.deliver_ok, Reply.bind_matched]

theorem guard_apply (test : α → Except Fault Bool) (parser : Parser α) (view : View) :
    parser.guard test view = (parser view).bind fun value rest =>
      match test value with
      | .ok true => .matched value rest
      | .ok false => .noMatch
      | .error cause => .fault cause := rfl

theorem guard_eq_matched {test : α → Except Fault Bool} {parser : Parser α} {view rest : View}
    {value : α} :
    parser.guard test view = .matched value rest ↔
      parser view = .matched value rest ∧ test value = .ok true := by
  simp only [guard_apply, Reply.bind_eq_matched]
  constructor
  · rintro ⟨found, middle, parsed, checked⟩
    split at checked
    · rename_i passes
      cases checked
      exact ⟨parsed, passes⟩
    · exact nomatch checked
    · exact nomatch checked
  · rintro ⟨parsed, passes⟩
    exact ⟨value, rest, parsed, by rw [passes]⟩

theorem guard_of_noMatch {test : α → Except Fault Bool} {parser : Parser α} {view : View}
    (fails : parser view = .noMatch) : parser.guard test view = .noMatch := by
  rw [guard_apply, fails, Reply.bind_noMatch]

theorem alt_apply (first second : Parser α) (view : View) :
    first.alt second view = match first view with
      | .noMatch => second view
      | reply => reply := rfl

theorem alt_of_noMatch_left {first second : Parser α} {view : View}
    (fails : first view = .noMatch) : first.alt second view = second view := by
  rw [alt, fails]

theorem alt_of_noMatch_right {first second : Parser α} {view : View}
    (fails : second view = .noMatch) : first.alt second view = first view := by
  rw [alt]
  split
  · rename_i failsToo
    rw [fails, failsToo]
  · rfl

theorem alt_of_matched {first second : Parser α} {view rest : View} {value : α}
    (parsed : first view = .matched value rest) :
    first.alt second view = .matched value rest := by
  rw [alt, parsed]

theorem alt_of_ne_noMatch {first second : Parser α} {view : View} (answers : first view ≠ .noMatch) :
    first.alt second view = first view := by
  rw [alt]
  split
  · rename_i fails
    exact absurd fails answers
  · rfl

theorem alt_eq_matched {first second : Parser α} {view rest : View} {value : α}
    (parsed : first.alt second view = .matched value rest) :
    first view = .matched value rest ∨
      first view = .noMatch ∧ second view = .matched value rest := by
  rw [alt] at parsed
  split at parsed
  · rename_i fails
    exact .inr ⟨fails, parsed⟩
  · exact .inl parsed

theorem satisfy_apply (test : Char → Bool) (view : View) :
    satisfy test view = match view.chars with
      | [] => .noMatch
      | char :: _ => if test char then .matched char (view.drop 1) else .noMatch := by
  cases shown : view.chars with
  | nil =>
    have empty : view.isNotEmpty = false := by simpa [shown] using view.isNotEmpty_iff
    rw [satisfy, empty]
    rfl
  | cons char more =>
    have some : view.isNotEmpty = true := by simpa [shown] using view.isNotEmpty_iff
    rw [satisfy, some, view.get?_eq, shown]
    rfl

theorem satisfy_eq_matched {test : Char → Bool} {view rest : View} {found : Char} :
    satisfy test view = .matched found rest ↔ view.Splits [found] rest ∧ test found = true := by
  rw [satisfy_apply]
  constructor
  · intro parsed
    split at parsed
    · cases parsed
    · rename_i char more shown
      split at parsed
      · rename_i passes
        cases parsed
        exact ⟨(View.splits_drop [found] shown).1, passes⟩
      · cases parsed
  · rintro ⟨split, passes⟩
    rw [split.chars, split.eq_drop]
    simp only [List.cons_append, List.nil_append, passes, if_true]
    rfl

theorem char_eq_matched {expected : Char} {view rest : View} {found : Char} :
    char expected view = .matched found rest ↔ found = expected ∧ view.Splits [expected] rest := by
  rw [char, satisfy_eq_matched, beq_iff_eq]
  constructor
  · rintro ⟨split, rfl⟩
    exact ⟨rfl, split⟩
  · rintro ⟨rfl, split⟩
    exact ⟨split, rfl⟩

theorem char_of_splits {expected : Char} {view rest : View} (split : view.Splits [expected] rest) :
    char expected view = .matched expected rest :=
  char_eq_matched.mpr ⟨rfl, split⟩

theorem char_of_head?_ne {expected : Char} {view : View}
    (other : view.chars.head? ≠ some expected) : char expected view = .noMatch := by
  rw [char, satisfy_apply]
  split
  · rfl
  · rename_i char more shown
    rw [if_neg]
    intro same
    rw [beq_iff_eq] at same
    exact other (by rw [shown, same]; rfl)

theorem span_apply (test : Char → Bool) (view : View) :
    span test view = .matched (view.span test).1 (view.span test).2 := rfl

theorem foldl_snoc_apply (parsers : List (Parser α)) (before : Parser (Array α)) (view : View) :
    parsers.foldl (fun before parser => before.lift2 (fun values value => .ok (values.push value))
        parser) before view =
      (before view).bind fun values middle =>
        (parsers.foldl (fun before parser =>
          before.lift2 (fun values value => .ok (values.push value)) parser) (just #[]) middle).bind
            fun others rest => .matched (values ++ others) rest := by
  induction parsers generalizing before view with
  | nil => simp [just_apply]
  | cons parser parsers ih =>
    simp only [List.foldl_cons]
    rw [ih]
    simp only [lift2_apply, Reply.bind_assoc, Reply.bind_matched, Reply.deliver_ok]
    congr 1
    funext values middle
    rw [ih]
    simp only [lift2_apply, just_apply, Reply.bind_assoc, Reply.bind_matched, Reply.deliver_ok]
    simp

theorem sequence_nil : sequence ([] : List (Parser α)) = just [] := rfl

theorem sequence_cons (parser : Parser α) (parsers : List (Parser α)) (view : View) :
    sequence (parser :: parsers) view = (parser view).bind fun value middle =>
      (sequence parsers middle).bind fun values rest => .matched (value :: values) rest := by
  simp only [sequence, map_apply, List.foldl_cons, foldl_snoc_apply parsers (lift2 _ _ _),
    lift2_apply, just_apply, Reply.bind_assoc, Reply.bind_matched, Reply.deliver_ok]
  simp

theorem traverse_char (expected : List Char) (view : View) :
    traverse char expected view =
      if expected <+: view.chars then .matched expected (view.drop expected.length)
      else .noMatch := by
  induction expected generalizing view with
  | nil =>
    have whole := view.splits_nil.eq_drop
    simp only [traverse, List.map_nil, sequence_nil, just_apply, List.nil_prefix, if_true]
    rw [← whole]
  | cons first others ih =>
    simp only [traverse, List.map_cons, sequence_cons] at ih ⊢
    by_cases starts : view.chars.head? = some first
    · obtain ⟨more, shown⟩ := List.head?_eq_some_iff.mp starts
      obtain ⟨split, left⟩ := View.splits_drop [first] shown
      rw [char_of_splits split, Reply.bind_matched, ih, left, shown]
      by_cases follows : others <+: more
      · obtain ⟨last, rest⟩ := follows
        have next := (View.splits_drop others (left.trans rest.symm)).1
        simp only [List.cons_prefix_cons, true_and, ← rest, List.prefix_append, if_true,
          Reply.bind_matched]
        rw [(split.trans next).eq_drop]
        rfl
      · simp [follows]
    · rw [char_of_head?_ne starts, Reply.bind_noMatch, if_neg]
      rintro ⟨more, shown⟩
      exact starts (by rw [← shown]; rfl)

theorem literal_apply (text : String) (view : View) :
    literal text view =
      if text.toList <+: view.chars then .matched text (view.drop text.length) else .noMatch := by
  rw [literal, map_apply, traverse_char, String.length_toList]
  split <;> simp

theorem literal_eq_matched {text found : String} {view rest : View}
    (parsed : literal text view = .matched found rest) :
    found = text ∧ view.Splits text.toList rest := by
  rw [literal_apply] at parsed
  split at parsed
  · rename_i starts
    obtain ⟨more, shown⟩ := starts
    cases parsed
    have split := (View.splits_drop text.toList shown.symm).1
    rw [String.length_toList] at split
    exact ⟨rfl, split⟩
  · cases parsed

theorem literal_of_splits {text : String} {view rest : View}
    (split : view.Splits text.toList rest) : literal text view = .matched text rest := by
  rw [literal_apply, if_pos ⟨rest.chars, split.chars.symm⟩, split.eq_drop, String.length_toList]

theorem maybe_apply (expected : Char) (view : View) :
    maybe expected view = if view.chars.head? = some expected
      then .matched (some expected) (view.drop 1) else .matched none view := by
  by_cases starts : view.chars.head? = some expected
  · obtain ⟨more, shown⟩ := List.head?_eq_some_iff.mp starts
    have split := (View.splits_drop [expected] shown).1
    rw [if_pos starts, maybe, alt_of_matched]
    rw [map_apply, char_of_splits split]
    rfl
  · rw [if_neg starts, maybe, alt_of_noMatch_left, just_apply]
    rw [map_apply, char_of_head?_ne starts, Reply.bind_noMatch]

theorem manyAfter_apply (element : Parser α) (values : Array α) (view : View) :
    manyAfter element values view = (many element view).bind fun others rest =>
      .matched (values.toList ++ others) rest := by
  rw [many]
  induction length : view.length using Nat.strongRecOn generalizing values view with
  | ind count ih =>
    rw [manyAfter, manyAfter.eq_def element #[]]
    split
    · rename_i value rest parsed
      split
      · rename_i shorter
        rw [ih _ (length ▸ shorter) (values.push value) rest rfl,
          ih _ (length ▸ shorter) (#[].push value) rest rfl]
        simp [Reply.bind_assoc]
      · simp
    · simp
    · rfl
    · rfl

theorem many_apply (element : Parser α) (view : View) :
    many element view = match element view with
      | .matched value rest =>
        if rest.length < view.length then
          (many element rest).bind fun values last => .matched (value :: values) last
        else .matched [] view
      | .noMatch => .matched [] view
      | .fault cause => .fault cause
      | .exhausted => .exhausted := by
  rw [many, manyAfter]
  simp only [manyAfter_apply element (#[].push _)]
  rfl

inductive Repeats (element : Parser α) : View → List α → View → Prop
  | stops {view} : element view = .noMatch → Repeats element view [] view
  | stalls {view value rest} : element view = .matched value rest → ¬rest.length < view.length →
      Repeats element view [] view
  | goesOn {view value middle values rest} : element view = .matched value middle →
      middle.length < view.length → Repeats element middle values rest →
      Repeats element view (value :: values) rest

theorem many_of_repeats {element : Parser α} {view rest : View} {values : List α}
    (run : Repeats element view values rest) : many element view = .matched values rest := by
  induction run with
  | stops fails => rw [many_apply, fails]
  | stalls parsed stuck =>
    rw [many_apply, parsed]
    simp only [stuck, if_false]
  | goesOn parsed shorter _ ih =>
    rw [many_apply, parsed]
    simp only [shorter, if_true, ih, Reply.bind_matched]

theorem repeats_of_many {element : Parser α} {view rest : View} {values : List α}
    (parsed : many element view = .matched values rest) : Repeats element view values rest := by
  induction length : view.length using Nat.strongRecOn generalizing view values with
  | ind count ih =>
    rw [many_apply] at parsed
    split at parsed
    · rename_i value middle found
      split at parsed
      · rename_i shorter
        obtain ⟨others, last, run, final⟩ := Reply.bind_eq_matched.mp parsed
        cases final
        exact .goesOn found shorter (ih _ (length ▸ shorter) run rfl)
      · rename_i stuck
        cases parsed
        exact .stalls found stuck
    · rename_i fails
      cases parsed
      exact .stops fails
    · cases parsed
    · cases parsed

end Parser

end Descent
