import Descent.Parser.Repetition
import Descent.Text.CharClass

/-!
Parsers for characters and runs of characters.
-/

namespace Descent.Parser

def satisfy (test : Char → Bool) : Parser Char :=
  fun view =>
    if view.isNotEmpty then
      match view.get? 0 with
      | some char => if test char then .matched char (view.drop 1) else .noMatch
      | none => .fault (.outside 0)
    else .noMatch

def char (expected : Char) : Parser Char :=
  satisfy (· == expected)

/-- The character if it comes next, and nothing otherwise; matches either way. -/
def maybe (expected : Char) : Parser (Option Char) :=
  ((char expected).map fun found => .ok (some found)).alt (just none)

def literal (text : String) : Parser String :=
  (traverse char text.toList).map fun chars => .ok (String.ofList chars)

/-- The longest run of characters that pass the test, as a view. It may be empty. -/
def span (test : Char → Bool) : Parser View :=
  fun view => .matched (view.span test).1 (view.span test).2

def notEmpty (parser : Parser View) : Parser View :=
  parser.guard fun found => .ok (!found.isEmpty)

def whitespace : Parser View :=
  span isBlank

end Descent.Parser
