import Descent.Json.Grammar

/-!
Whole documents. A lenient reading takes a value from the front of a text and leaves the rest alone.
A strict reading allows whitespace on either side and nothing else.
-/

namespace Descent.Json

inductive ReadError where
  /-- There is no value at the front. -/
  | noMatch
  /-- Something other than whitespace follows the value, at this offset. -/
  | trailing (position : Nat)
  /-- Values are nested beyond the bound that was given. -/
  | tooDeep
  | fault (cause : Fault)

/-- Reads a document with at most so many values open at once. -/
def readWithin (depth : Nat) (strict : Bool) (text : String) : Except ReadError Json :=
  let view := View.of text
  let start := if strict then (view.span isBlank).2 else view
  match Grammar.valueWithin depth start with
  | .matched value rest =>
    let leftover := (rest.span isBlank).2
    if strict && !leftover.isEmpty then .error (.trailing leftover.offset) else .ok value
  | .noMatch => .error .noMatch
  | .fault cause => .error (.fault cause)
  | .exhausted => .error .tooDeep

def read (strict : Bool) (text : String) : Except ReadError Json :=
  readWithin (text.length + 1) strict text

end Descent.Json
