/-!
Line breaks. A carriage return, a line feed, and a carriage return with a line feed right after it
are one break each; no other character is one.
-/

namespace Descent.LineBreak

/-- Every break becomes a line feed: a line feed right after a carriage return is dropped, and a
carriage return is replaced. -/
def unify (text : List Char) : List Char :=
  ((' ' :: text).zip text).filterMap fun (before, char) =>
    if before = '\r' ∧ char = '\n' then none
    else some (if char = '\r' then '\n' else char)

/-- Whether a break ends with this character, given what follows it. -/
def endsAt (char : Char) (rest : List Char) : Bool :=
  char == '\n' || (char == '\r' && rest.head? != some '\n')

/-- Adds to `found` the offset after each break, the last one first; `offset` counts what has been
read before. -/
def scanEnds : List Char → Nat → List Nat → List Nat
  | [], _, found => found
  | char :: rest, offset, found =>
    scanEnds rest (offset + 1) (if endsAt char rest then (offset + 1) :: found else found)

def ends (text : List Char) : List Nat :=
  (scanEnds text 0 []).reverse

end Descent.LineBreak
