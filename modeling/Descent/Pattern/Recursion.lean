import Descent.Pattern.Basic

/-!
Patterns that mention one another, and themselves. What a reference stands for is looked up each
time it is entered, so a run may enter one reference any number of times.
-/

namespace Descent

/-- What each reference stands for, or the fault of entering it. -/
def Meanings (κ : Type) : Type :=
  κ → Except Fault (Pattern κ)

namespace Meanings

variable {κ : Type}

/-- Runs what a reference stands for, with at most `fuel` references entered at once, this one
counted. -/
def enter (meanings : Meanings κ) : Nat → κ → Parser Value
  | 0, _ => fun _ => .exhausted
  | fuel + 1, target =>
    match meanings target with
    | .ok pattern => pattern.eval (meanings.enter fuel)
    | .error cause => fun _ => .fault cause

/-- A run that enters one reference twice on the same view, the first time still being on its way,
never ends. So with `count` references that stand for a pattern this many entries at once are enough
for every run that ends; the last one may be a fault. -/
def enough (count : Nat) (view : View) : Nat :=
  count * (view.length + 1) + 1

def run (meanings : Meanings κ) (count : Nat) (pattern : Pattern κ) : Parser Value :=
  fun view => pattern.eval (meanings.enter (enough count view)) view

end Meanings

end Descent
