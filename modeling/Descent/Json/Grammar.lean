import Descent.Json.Basic
import Descent.Parser.Character
import Descent.Text.Numeral

/-!
A JSON grammar. Numbers are signed integers of 32 bits without fraction or exponent. A string is
what stands between two double quotes; a backslash in it means nothing special. Values nest through
`valueWithin`, whose argument bounds how many values may be open at once.
-/

namespace Descent.Json.Grammar

open Descent.Parser

def null : Parser Json :=
  (literal "null").always .null

def bool : Parser Json :=
  ((literal "true").always (.bool true)).alt ((literal "false").always (.bool false))

/-- The digits without leading zeros, but at least one digit. -/
def withoutLeadingZeros (digits : List Char) : List Char :=
  match digits.dropWhile (· == '0') with
  | [] => ['0']
  | rest => rest

/-- More significant digits than this cannot make a number of 32 bits. -/
def digitLimit : Nat := 10

def digits : Parser (List Char) :=
  ((notEmpty (span Char.isDigit)).map fun found => .ok (withoutLeadingZeros found.chars)).guard
    fun digits => .ok (digits.length ≤ digitLimit)

def applySign (minus : Option Char) (digits : List Char) : Except Fault Int :=
  match Numeral.plain? digits with
  | some size => .ok (if minus.isNone then size else -size)
  | none => .error .notNumeral

def integer : Parser Int :=
  ((maybe '-').map fun minus => .ok (applySign minus)).ap digits

def least : Int := -2147483648

def greatest : Int := 2147483647

def number : Parser Json :=
  (integer.guard fun value => .ok (least ≤ value && value ≤ greatest)).map
    fun value => .ok (.num value)

/-- The value is the view between the quotes. -/
def stringLiteral : Parser View :=
  ((char '"').andThen (span (· != '"'))).skip (char '"')

def string : Parser Json :=
  stringLiteral.map fun content => .ok (.str content.text)

/-- A mark with any whitespace around it. -/
def spacedMark (mark : Char) : Parser Char :=
  (whitespace.andThen (char mark)).skip whitespace

/-- Entries with commas between them, enclosed by two marks. -/
def enclosed {α : Type} (left right : Char) (entry : Parser α) : Parser (List α) :=
  (((char left).andThen whitespace).andThen (sepBy (spacedMark ',') entry)).skip
    (whitespace.andThen (char right))

def arrayOf (value : Parser Json) : Parser Json :=
  (enclosed '[' ']' value).map fun values => .ok (.arr values)

def pairOf (value : Parser Json) : Parser (String × Json) :=
  (stringLiteral.map fun key => .ok fun member => .ok (key.text, member)).ap
    ((spacedMark ':').andThen value)

def objectOf (value : Parser Json) : Parser Json :=
  (enclosed '\x7b' '\x7d' (pairOf value)).map fun pairs => .ok (ofPairs pairs)

/-- A value whose entries, if it has any, are read by the given parser. -/
def valueOf (inner : Parser Json) : Parser Json :=
  ((((null.alt bool).alt number).alt string).alt (arrayOf inner)).alt (objectOf inner)

/-- A value inside at most so many others, itself counted. -/
def valueWithin : Nat → Parser Json
  | 0 => fun _ => .exhausted
  | depth + 1 => valueOf (valueWithin depth)

/-- Every open value has consumed a character, so this bound is never reached. -/
def value : Parser Json :=
  fun view => valueWithin (view.length + 1) view

def array : Parser Json :=
  arrayOf value

def object : Parser Json :=
  objectOf value

end Descent.Json.Grammar
