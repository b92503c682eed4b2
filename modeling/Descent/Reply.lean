import Descent.View.Basic

/-!
How a parser run ends: in a match, in no match, or in a fault, which is a mistake in the grammar and
no fact about the text. A run may also exhaust the number of nested steps it was given.
-/

namespace Descent

inductive Fault where
  /-- A view was asked for a character that it does not have. -/
  | outside (index : Int)
  /-- A function met a value of a kind that it does not take. -/
  | wrongKind
  /-- A text that is no numeral was to be read as one. -/
  | notNumeral
  | undefinedCell (name : String)
  | redefinedCell (name : String)
  /-- A name that stands for nothing, or for no cell where one is needed. -/
  | unknownName (name : String)

def Fault.message? : Fault → Option String
  | outside index => some (toString index)
  | wrongKind => none
  | notNumeral => none
  | undefinedCell name => some ("Parser " ++ quoted name ++ " was used before it was defined.")
  | redefinedCell name => some ("Parser " ++ quoted name ++ " is already defined.")
  | unknownName _ => none

/-- A match has a value and the view of what remains. -/
inductive Reply (α : Type) where
  | matched (value : α) (rest : View)
  | noMatch
  | fault (cause : Fault)
  | exhausted

namespace Reply

variable {α β : Type}

/-- Goes on after a match and passes everything else through. -/
def bind (reply : Reply α) (next : α → View → Reply β) : Reply β :=
  match reply with
  | matched value rest => next value rest
  | noMatch => noMatch
  | fault cause => fault cause
  | exhausted => exhausted

/-- A computed value in front of what remains, or the fault of computing it. -/
def deliver (result : Except Fault α) (rest : View) : Reply α :=
  match result with
  | .ok value => matched value rest
  | .error cause => fault cause

end Reply

end Descent
