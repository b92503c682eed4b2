/-!
Counting how many different elements a list holds, up to a given sameness.
-/

namespace Descent

/-- An element counts unless the same one comes later. -/
def distinctCount {α : Type} (same : α → α → Bool) : List α → Nat
  | [] => 0
  | element :: rest =>
    (if rest.any (same element) then 0 else 1) + distinctCount same rest

end Descent
