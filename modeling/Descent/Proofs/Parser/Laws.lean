import Descent.Proofs.Parser.Equations

/-!
Laws of the combinators. They hold of all parsers and functions, those that refuse, raise a fault or
exhaust their bound included: whichever of these comes first in one form comes first in the other.
-/

namespace Descent

variable {α β γ δ : Type}

theorem Reply.bind_deliver (result : Except Fault α) (rest : View) (f : α → Except Fault β) :
    (deliver result rest).bind (fun value left => deliver (f value) left) =
      deliver (result >>= f) rest := by
  cases result <;> rfl

namespace Parser

section Mapping

theorem map_map (f : α → Except Fault β) (g : β → Except Fault γ) (parser : Parser α) :
    (parser.map f).map g = parser.map fun value => f value >>= g := by
  funext view
  simp only [map_apply, Reply.bind_assoc, Reply.bind_deliver]

theorem map_ok (parser : Parser α) : parser.map .ok = parser := by
  funext view
  simp only [map_apply, Reply.deliver_ok, Reply.bind_matched_right]

end Mapping

section Applying

theorem just_ok_ap (parser : Parser α) : (just .ok).ap parser = parser := by
  funext view
  simp only [ap_apply, just_apply, Reply.bind_matched, Reply.deliver_ok, Reply.bind_matched_right]

theorem just_ap_just (f : α → Except Fault β) (value : α) :
    (just f).ap (just value) = match f value with
      | .ok result => just result
      | .error cause => fun _ => .fault cause := by
  funext view
  simp only [ap_apply, just_apply, Reply.bind_matched]
  cases f value <;> rfl

theorem ap_just (function : Parser (α → Except Fault β)) (value : α) :
    function.ap (just value) = (just fun f : α → Except Fault β => f value).ap function := rfl

def compose (f : β → Except Fault γ) :
    Except Fault ((α → Except Fault β) → Except Fault (α → Except Fault γ)) :=
  .ok fun g => .ok fun value => g value >>= f

theorem compose_ap (first : Parser (β → Except Fault γ)) (second : Parser (α → Except Fault β))
    (argument : Parser α) :
    (((just compose).ap first).ap second).ap argument = first.ap (second.ap argument) := by
  funext view
  simp only [ap_apply, just_apply, compose, Reply.bind_assoc, Reply.bind_matched, Reply.deliver_ok,
    Reply.bind_deliver]

theorem lazyAp_eq_ap (function : Parser (α → Except Fault β)) (argument : Parser α) :
    function.lazyAp (fun _ => argument) = function.ap argument := rfl

end Applying

section Sequencing

variable (first : Parser α) (second : Parser β) (third : Parser γ)

theorem andThen_assoc :
    (first.andThen second).andThen third = first.andThen (second.andThen third) := by
  funext view
  simp only [andThen_apply, Reply.bind_assoc]

theorem skip_assoc : (first.skip second).skip third = first.skip (second.skip third) := by
  funext view
  simp only [skip_apply, Reply.bind_assoc, Reply.bind_matched]

theorem andThen_skip : (first.andThen second).skip third = first.andThen (second.skip third) := by
  funext view
  simp only [andThen_apply, skip_apply, Reply.bind_assoc]

end Sequencing

section Choosing

variable (first second third : Parser α)

theorem alt_assoc : (first.alt second).alt third = first.alt (second.alt third) := by
  funext view
  simp only [alt_apply]
  cases first view <;> rfl

theorem empty_alt : empty.alt first = first := rfl

theorem alt_empty : first.alt empty = first := by
  funext view
  rw [alt_apply]
  cases first view <;> rfl

theorem alt_self : first.alt first = first := by
  funext view
  cases parsed : first view with
  | noMatch => rw [alt_of_noMatch_left parsed, parsed]
  | matched value rest => rw [alt_of_matched parsed]
  | fault cause => rw [alt_apply, parsed]
  | exhausted => rw [alt_apply, parsed]

theorem just_alt (value : α) : (just value).alt first = just value := rfl

/-- Alternatives that do not match or all answer alike can be tried in any order. -/
theorem foldl_alt_of_agreeing {alternatives : List (Parser α)} {view : View} {reply : Reply α}
    (agree : ∀ parser ∈ alternatives, parser view = .noMatch ∨ parser view = reply)
    (answers : first view = reply ∨
      first view = .noMatch ∧ ∃ parser ∈ alternatives, parser view = reply) :
    alternatives.foldl alt first view = reply := by
  induction alternatives generalizing first with
  | nil => simpa using answers
  | cons parser others ih =>
    obtain ⟨here, agree⟩ := List.forall_mem_cons.mp agree
    rw [List.foldl_cons]
    apply ih _ agree
    rcases answers with same | ⟨refused, parser, member, same⟩
    · left
      by_cases refused : first view = .noMatch
      · rw [alt_of_noMatch_left refused]
        rcases here with refusedToo | sameToo
        · rw [refusedToo, ← same, refused]
        · exact sameToo
      · rw [alt_of_ne_noMatch refused, same]
    · rw [alt_of_noMatch_left refused]
      rcases List.mem_cons.mp member with rfl | later
      · exact .inl same
      · exact here.symm.imp_right fun refusedToo => ⟨refusedToo, parser, later, same⟩

/-- What stands before both alternatives is run once or twice, and ends the same way both times. -/
theorem andThen_alt (before : Parser β) :
    before.andThen (first.alt second) = (before.andThen first).alt (before.andThen second) := by
  funext view
  simp only [andThen_apply, alt_apply]
  cases before view with
  | matched value middle => rfl
  | noMatch => rfl
  | fault cause => rfl
  | exhausted => rfl

end Choosing

/-- The laws of mapping, of application, of sequencing and of ordered choice, as equations between
parsers: the two sides end the same way on every view. -/
theorem combinators_obey_algebra :
    (∀ (p : Parser α) (f : α → Except Fault β) (g : β → Except Fault γ),
      (p.map f).map g = p.map fun value => f value >>= g) ∧
    (∀ p : Parser α, p.map .ok = p) ∧
    (∀ v : Parser α, (just .ok).ap v = v) ∧
    (∀ (f : α → Except Fault β) (x : α), (just f).ap (just x) = match f x with
      | .ok y => just y
      | .error cause => fun _ => .fault cause) ∧
    (∀ (u : Parser (α → Except Fault β)) (y : α),
      u.ap (just y) = (just fun f : α → Except Fault β => f y).ap u) ∧
    (∀ (u : Parser (β → Except Fault γ)) (v : Parser (α → Except Fault β)) (w : Parser α),
      (((just compose).ap u).ap v).ap w = u.ap (v.ap w)) ∧
    (∀ (p : Parser (α → Except Fault β)) (q : Parser α), p.lazyAp (fun _ => q) = p.ap q) ∧
    (∀ (a : Parser α) (b : Parser β) (c : Parser γ),
      (a.andThen b).andThen c = a.andThen (b.andThen c) ∧
      (a.skip b).skip c = a.skip (b.skip c) ∧
      (a.andThen b).skip c = a.andThen (b.skip c)) ∧
    (∀ a b c : Parser α, (a.alt b).alt c = a.alt (b.alt c)) ∧
    (∀ p : Parser α, empty.alt p = p ∧ p.alt empty = p ∧ p.alt p = p) ∧
    (∀ (x : α) (p : Parser α), (just x).alt p = just x) ∧
    ∀ (a : Parser δ) (b c : Parser α),
      a.andThen (b.alt c) = (a.andThen b).alt (a.andThen c) := by
  refine ⟨fun p f g => map_map f g p, map_ok, just_ok_ap, just_ap_just, ap_just, compose_ap,
    lazyAp_eq_ap, ?_, alt_assoc, ?_, fun x p => just_alt p x, fun a b c => andThen_alt b c a⟩
  · intro a b c
    exact ⟨andThen_assoc a b c, skip_assoc a b c, andThen_skip a b c⟩
  · intro p
    exact ⟨empty_alt p, alt_empty p, alt_self p⟩

end Parser

end Descent
