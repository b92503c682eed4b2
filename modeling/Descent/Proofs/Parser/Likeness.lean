import Descent.Proofs.Parser.Equations
import Mathlib.Data.List.Forall2

/-!
Two runs side by side, each on a view of its own. Parsers built alike from parsers that run alike
run alike.
-/

namespace Descent

variable {α β γ : Type}

/-- Which views go together: those that the parsers of the two runs stand on, and those that their
values hold. An ending of the first run that is `lost` goes together with any of the second. -/
structure Likeness where
  ahead : View → View → Prop
  held : View → View → Prop
  lost : Option Fault → Prop
  chars_of_ahead {first second : View} : ahead first second → first.chars = second.chars
  chars_of_held {first second : View} : held first second → first.chars = second.chars
  drop {first second : View} (count : Int) :
    ahead first second → ahead (first.drop count) (second.drop count)
  taken {first second : View} (test : Char → Bool) :
    ahead first second → held (first.span test).1 (second.span test).1
  left {first second : View} (test : Char → Bool) :
    ahead first second → ahead (first.span test).2 (second.span test).2

theorem Likeness.length_of_ahead (like : Likeness) {first second : View}
    (ahead : like.ahead first second) : first.length = second.length := by
  rw [← View.length_chars, ← View.length_chars, like.chars_of_ahead ahead]

inductive Computed (alike : α → α → Prop) : Except Fault α → Except Fault α → Prop
  | ok {value other} : alike value other → Computed alike (.ok value) (.ok other)
  | error (cause) : Computed alike (.error cause) (.error cause)

theorem Computed.of_eq {result other : Except Fault α} (same : result = other) :
    Computed Eq result other := by
  subst same
  cases result with
  | ok => exact .ok rfl
  | error cause => exact .error cause

inductive Reply.Alike (like : Likeness) (alike : α → α → Prop) : Reply α → Reply α → Prop
  | matched {value other rest remainder} : alike value other → like.ahead rest remainder →
      Alike like alike (.matched value rest) (.matched other remainder)
  | noMatch : Alike like alike .noMatch .noMatch
  | fault (cause) : Alike like alike (.fault cause) (.fault cause)
  | exhausted : Alike like alike .exhausted .exhausted
  | lostFault {cause reply} : like.lost (some cause) → Alike like alike (.fault cause) reply
  | lostRun {reply} : like.lost none → Alike like alike .exhausted reply

def Parser.Alike (like : Likeness) (alike : α → α → Prop) (parser other : Parser α) : Prop :=
  ∀ first second, like.ahead first second → (parser first).Alike like alike (other second)

variable {like : Likeness} {alike : α → α → Prop} {alike' : β → β → Prop} {alike'' : γ → γ → Prop}

namespace Reply.Alike

theorem deliver {result other : Except Fault α} {rest remainder : View}
    (computed : Computed alike result other) (ahead : like.ahead rest remainder) :
    (deliver result rest).Alike like alike (deliver other remainder) := by
  cases computed with
  | ok values => exact .matched values ahead
  | error cause => exact .fault cause

theorem bind {reply other : Reply α} {next follow : α → View → Reply β}
    (replies : reply.Alike like alike other)
    (step : ∀ value value' rest remainder, alike value value' → like.ahead rest remainder →
      (next value rest).Alike like alike' (follow value' remainder)) :
    (reply.bind next).Alike like alike' (other.bind follow) := by
  cases replies with
  | matched values ahead => exact step _ _ _ _ values ahead
  | noMatch => exact .noMatch
  | fault cause => exact .fault cause
  | exhausted => exact .exhausted
  | lostFault lost => exact .lostFault lost
  | lostRun lost => exact .lostRun lost

theorem eq {reply other : Reply α} (replies : reply.Alike like alike other)
    (same : ∀ {first second}, like.ahead first second → first = second)
    (equal : ∀ {value value'}, alike value value' → value = value')
    (kept : ∀ cause, like.lost (some cause) → reply ≠ .fault cause)
    (ended : like.lost none → reply ≠ .exhausted) : reply = other := by
  cases replies with
  | matched values left => rw [equal values, same left]
  | noMatch => rfl
  | fault => rfl
  | exhausted => rfl
  | lostFault lost => exact absurd rfl (kept _ lost)
  | lostRun lost => exact absurd rfl (ended lost)

end Reply.Alike

namespace Parser.Alike

theorem just {value other : α} (values : alike value other) :
    (just value).Alike like alike (just other) :=
  fun _ _ ahead => .matched values ahead

theorem empty : (empty : Parser α).Alike like alike empty :=
  fun _ _ _ => .noMatch

theorem map {parser other : Parser α} {f g : α → Except Fault β}
    (parsers : parser.Alike like alike other)
    (functions : ∀ value value', alike value value' → Computed alike' (f value) (g value')) :
    (parser.map f).Alike like alike' (other.map g) := by
  intro first second ahead
  refine (parsers first second ahead).bind fun value value' rest remainder values left => ?_
  exact .deliver (functions value value' values) left

theorem always {parser other : Parser α} {value value' : β}
    (parsers : parser.Alike like alike other) (values : alike' value value') :
    (parser.always value).Alike like alike' (other.always value') :=
  parsers.map fun _ _ _ => .ok values

theorem ap {function other : Parser (α → Except Fault β)} {argument argument' : Parser α}
    (functions : function.Alike like
      (fun f g => ∀ value value', alike value value' → Computed alike' (f value) (g value')) other)
    (arguments : argument.Alike like alike argument') :
    (function.ap argument).Alike like alike' (other.ap argument') := by
  intro first second ahead
  refine (functions first second ahead).bind fun f g middle middle' applied between => ?_
  refine (arguments middle middle' between).bind fun value value' rest remainder values left => ?_
  exact .deliver (applied value value' values) left

theorem alt {first second first' second' : Parser α} (firsts : first.Alike like alike first')
    (seconds : second.Alike like alike second') :
    (first.alt second).Alike like alike (first'.alt second') := by
  intro view view' ahead
  have replies := firsts view view' ahead
  rw [Parser.alt, Parser.alt]
  generalize first view = reply at replies
  generalize first' view' = other at replies
  cases replies with
  | matched values left => exact .matched values left
  | noMatch => exact seconds view view' ahead
  | fault cause => exact .fault cause
  | exhausted => exact .exhausted
  | lostFault lost => exact .lostFault lost
  | lostRun lost => exact .lostRun lost

theorem lift2 {first first' : Parser α} {second second' : Parser β}
    {f g : α → β → Except Fault γ} (firsts : first.Alike like alike first')
    (seconds : second.Alike like alike' second')
    (functions : ∀ value value', alike value value' → ∀ last last', alike' last last' →
      Computed alike'' (f value last) (g value' last')) :
    (lift2 f first second).Alike like alike'' (lift2 g first' second') := by
  refine ap (firsts.map fun value value' values => ?_) seconds
  exact .ok fun last last' lasts => functions value value' values last last' lasts

theorem andThen {first first' : Parser α} {second second' : Parser β}
    (firsts : first.Alike like alike first') (seconds : second.Alike like alike' second') :
    (first.andThen second).Alike like alike' (first'.andThen second') :=
  ap (firsts.map fun _ _ _ => .ok fun _ _ lasts => .ok lasts) seconds

theorem skip {first first' : Parser α} {second second' : Parser β}
    (firsts : first.Alike like alike first') (seconds : second.Alike like alike' second') :
    (first.skip second).Alike like alike (first'.skip second') :=
  ap (firsts.map fun _ _ values => .ok fun _ _ _ => .ok values) seconds

theorem guard {parser other : Parser α} {test test' : α → Except Fault Bool}
    (parsers : parser.Alike like alike other)
    (tests : ∀ value value', alike value value' → test value = test' value') :
    (parser.guard test).Alike like alike (other.guard test') := by
  intro first second ahead
  refine (parsers first second ahead).bind fun value value' rest remainder values left => ?_
  rw [tests value value' values]
  split
  · exact .matched values left
  · exact .noMatch
  · exact .fault _

theorem satisfy (test : Char → Bool) : (satisfy test).Alike like Eq (satisfy test) := by
  intro first second ahead
  rw [satisfy_apply, satisfy_apply, like.chars_of_ahead ahead]
  split
  · exact .noMatch
  · split
    · exact .matched rfl (like.drop 1 ahead)
    · exact .noMatch

theorem char (expected : Char) : (char expected).Alike like Eq (char expected) :=
  satisfy _

theorem maybe (expected : Char) : (maybe expected).Alike like Eq (maybe expected) :=
  ((char expected).map fun _ _ same => .ok (congrArg some same)).alt (just rfl)

theorem literal (text : String) : (literal text).Alike like Eq (literal text) := by
  intro first second ahead
  rw [literal_apply, literal_apply, like.chars_of_ahead ahead]
  split
  · exact .matched rfl (like.drop _ ahead)
  · exact .noMatch

theorem span (test : Char → Bool) : (span test).Alike like like.held (span test) :=
  fun _ _ ahead => .matched (like.taken test ahead) (like.left test ahead)

theorem notEmpty {parser other : Parser View} (parsers : parser.Alike like like.held other) :
    (notEmpty parser).Alike like like.held (notEmpty other) := by
  refine parsers.guard fun found found' held => ?_
  have lengths : found.length = found'.length := by
    rw [← View.length_chars, ← View.length_chars, like.chars_of_held held]
  rw [View.isEmpty, View.isEmpty, lengths]

theorem sequence {parsers others : List (Parser α)}
    (each : List.Forall₂ (Parser.Alike like alike) parsers others) :
    (sequence parsers).Alike like (List.Forall₂ alike) (sequence others) := by
  induction each with
  | nil => exact just .nil
  | cons head _ ih =>
    intro first second ahead
    rw [sequence_cons, sequence_cons]
    refine (head first second ahead).bind fun value value' middle middle' values between => ?_
    refine (ih middle middle' between).bind fun more more' rest remainder others left => ?_
    exact .matched (.cons values others) left

theorem many {element other : Parser α} (elements : element.Alike like alike other) :
    (many element).Alike like (List.Forall₂ alike) (many other) := by
  intro first second ahead
  induction length : first.length using Nat.strongRecOn generalizing first second with
  | ind count ih =>
    have replies := elements first second ahead
    rw [many_apply, many_apply]
    generalize element first = reply at replies
    generalize other second = reply' at replies
    cases replies with
    | matched values left =>
      -- what is left has one length in both runs, so both go on or both stop
      dsimp only
      rw [← like.length_of_ahead left, ← like.length_of_ahead ahead]
      split
      · rename_i progress
        refine (ih _ (length ▸ progress) _ _ left rfl).bind fun more more' rest remainder others last => ?_
        exact .matched (.cons values others) last
      · exact .matched .nil ahead
    | noMatch => exact .matched .nil ahead
    | fault cause => exact .fault cause
    | exhausted => exact .exhausted
    | lostFault lost => exact .lostFault lost
    | lostRun lost => exact .lostRun lost

theorem sepBy {separator separator' : Parser β} {element element' : Parser α}
    (separators : separator.Alike like alike' separator')
    (elements : element.Alike like alike element') :
    (sepBy separator element).Alike like (List.Forall₂ alike) (sepBy separator' element') := by
  refine alt (lift2 elements (many (separators.andThen elements)) ?_) (just .nil)
  exact fun _ _ values _ _ others => .ok (.cons values others)

end Parser.Alike

section Patience

variable {ready : View → Prop} {lasting : View.Lasting ready}

def Likeness.patient (ready : View → Prop) (lasting : View.Lasting ready) : Likeness where
  ahead := fun first second => first = second ∧ ready first
  held := Eq
  lost := fun cause => cause = none
  chars_of_ahead := fun both => congrArg View.chars both.1
  chars_of_held := congrArg View.chars
  drop := by
    rintro first _ count ⟨rfl, start⟩
    exact ⟨rfl, lasting (first.reaches_drop count) start⟩
  taken := by
    rintro first _ test ⟨rfl, _⟩
    rfl
  left := by
    rintro first _ test ⟨rfl, start⟩
    exact ⟨rfl, lasting (first.splits_span test).reaches start⟩

theorem Reply.eq_of_alike {reply other : Reply α} (equal : ∀ {value value'}, alike value value' → value = value')
    (replies : reply.Alike (.patient ready lasting) alike other) (ended : reply ≠ .exhausted) :
    reply = other :=
  replies.eq And.left equal (fun _ lost => absurd lost (Option.some_ne_none _)) fun _ => ended

end Patience

end Descent
