import Descent.Parser.Basic

/-!
Sequences and repetitions of parsers. A repetition ends at the first element that does not match or
does not consume anything, so it always ends.
-/

namespace Descent.Parser

variable {α β ι : Type}

/-- Each parser in turn, from where the one before left off; the values in a list. -/
def sequence (parsers : List (Parser α)) : Parser (List α) :=
  let collected := parsers.foldl
    (fun before parser => before.lift2 (fun values value => .ok (values.push value)) parser)
    (just #[])
  collected.map fun values => .ok values.toList

def traverse (f : ι → Parser α) (items : List ι) : Parser (List α) :=
  sequence (items.map f)

/-- The elements from `view` on, after those already in `values`. -/
def manyAfter (element : Parser α) (values : Array α) (view : View) : Reply (List α) :=
  match element view with
  | .matched value rest =>
    if rest.length < view.length then manyAfter element (values.push value) rest
    else .matched values.toList view
  | .noMatch => .matched values.toList view
  | .fault cause => .fault cause
  | .exhausted => .exhausted
termination_by view.length

/-- As many elements as match one after the other, each consuming something. A last element that
matches without consuming is dropped. -/
def many (element : Parser α) : Parser (List α) :=
  manyAfter element #[]

/-- Elements with separators between them. The first element may consume nothing; a separator that
no element follows is given back. -/
def sepBy (separator : Parser β) (element : Parser α) : Parser (List α) :=
  (element.lift2 (fun first others => .ok (first :: others)) (many (separator.andThen element))).alt
    (just [])

end Descent.Parser
