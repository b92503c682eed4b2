import Descent.Proofs.Parser.Equations
import Descent.Proofs.Pattern.Contents

/-!
Most constructors of patterns run one pattern and then another. They are told apart only by how the
value is computed from the two values, so what holds of such runs is proved once for all of them.
-/

namespace Descent.Pattern

variable {κ : Type}

inductive Pairs : Pattern κ → (Value → Value → Except Fault Value) → Pattern κ → Pattern κ → Prop
  | ap (function argument) : Pairs (.ap function argument) Value.apply function argument
  | lazyAp (function argument) : Pairs (.lazyAp function argument) Value.apply function argument
  | andThen (first second) : Pairs (.andThen first second) (fun _ value => .ok value) first second
  | skip (first second) : Pairs (.skip first second) (fun value _ => .ok value) first second
  | lift2 (combine first second) : Pairs (.lift2 combine first second) combine.apply first second
  | sequence (pattern patterns) :
    Pairs (.sequence (pattern :: patterns)) Combine.cons.apply pattern (.sequence patterns)

variable {enter : κ → Parser Value} {pattern first second : Pattern κ}
variable {join : Value → Value → Except Fault Value}

theorem Pairs.eval_eq (pairs : Pairs pattern join first second) :
    pattern.eval enter = Parser.lift2 join (first.eval enter) (second.eval enter) := by
  cases pairs with
  | sequence _ patterns =>
    funext view
    rw [eval, evalAll, Parser.map_apply, Parser.sequence_cons, Parser.lift2_apply, Reply.bind_assoc]
    simp only [eval, Parser.map_apply, Reply.bind_assoc, Reply.bind_matched, Reply.deliver_ok,
      Combine.apply]
  | _ => rfl

theorem Pairs.views_eq (pairs : Pairs pattern join first second) :
    pattern.views = first.views ++ second.views := by
  cases pairs <;> rfl

inductive Atomic : Pattern κ → Prop
  | char (text) : Atomic (.char text)
  | literal (text) : Atomic (.literal text)
  | satisfy (chars) : Atomic (.satisfy chars)
  | span (chars) : Atomic (.span chars)
  | maybe (text) : Atomic (.maybe text)
  | just (value) : Atomic (.just value)
  | empty : Atomic .empty
  | nothing : Atomic (.sequence [])
  | traverse (piece texts) : Atomic (.traverse piece texts)
  | rule (which) : Atomic (.rule which)

theorem induct_pairs {motive : Pattern κ → Prop} (atomic : ∀ pattern, Atomic pattern → motive pattern)
    (map : ∀ transform pattern, motive pattern → motive (.map transform pattern))
    (always : ∀ value pattern, motive pattern → motive (.always value pattern))
    (guard : ∀ check pattern, motive pattern → motive (.guard check pattern))
    (pair : ∀ pattern join first second, Pairs pattern join first second → motive first →
      motive second → motive pattern)
    (alt : ∀ first second, motive first → motive second → motive (.alt first second))
    (many : ∀ element, motive element → motive (.many element))
    (sepBy : ∀ separator element, motive separator → motive element →
      motive (.sepBy separator element))
    (reference : ∀ target, motive (.reference target)) (pattern : Pattern κ) : motive pattern := by
  induction pattern with
  | map transform pattern ih => exact map transform pattern ih
  | always value pattern ih => exact always value pattern ih
  | guard check pattern ih => exact guard check pattern ih
  | alt first second firsts seconds => exact alt first second firsts seconds
  | many element ih => exact many element ih
  | sepBy separator element separators elements => exact sepBy separator element separators elements
  | reference target => exact reference target
  | ap function argument functions arguments => exact pair _ _ _ _ (.ap _ _) functions arguments
  | lazyAp function argument functions arguments =>
    exact pair _ _ _ _ (.lazyAp _ _) functions arguments
  | andThen first second firsts seconds => exact pair _ _ _ _ (.andThen _ _) firsts seconds
  | skip first second firsts seconds => exact pair _ _ _ _ (.skip _ _) firsts seconds
  | lift2 combine first second firsts seconds => exact pair _ _ _ _ (.lift2 _ _ _) firsts seconds
  | sequence patterns ih =>
    induction patterns with
    | nil => exact atomic _ .nothing
    | cons pattern patterns others =>
      obtain ⟨first, rest⟩ := List.forall_mem_cons.mp ih
      exact pair _ _ _ _ (.sequence _ _) first (others rest)
  | char text => exact atomic _ (.char text)
  | literal text => exact atomic _ (.literal text)
  | satisfy chars => exact atomic _ (.satisfy chars)
  | span chars => exact atomic _ (.span chars)
  | maybe text => exact atomic _ (.maybe text)
  | just value => exact atomic _ (.just value)
  | empty => exact atomic _ .empty
  | traverse piece texts => exact atomic _ (.traverse piece texts)
  | rule which => exact atomic _ (.rule which)

end Descent.Pattern
