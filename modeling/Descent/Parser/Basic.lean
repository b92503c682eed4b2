import Descent.Reply

/-!
Parsers and the ways to put two of them together. A parser is a function from the view ahead to a
reply. Everything is spelled in terms of `just`, `empty`, `map`, `ap` and `alt`. A function given
to `map` may raise a fault, and so may a function that a parser yields for `ap`.
-/

namespace Descent

def Parser (α : Type) : Type :=
  View → Reply α

namespace Parser

variable {α β γ : Type}

def just (value : α) : Parser α :=
  fun view => .matched value view

def empty : Parser α :=
  fun _ => .noMatch

def map (f : α → Except Fault β) (parser : Parser α) : Parser β :=
  fun view => (parser view).bind fun value rest => .deliver (f value) rest

def always (value : β) (parser : Parser α) : Parser β :=
  parser.map fun _ => .ok value

/-- The function comes from the first parser and its argument from the second, which runs on what
the first one leaves. The function is applied only after both have matched. -/
def ap (function : Parser (α → Except Fault β)) (argument : Parser α) : Parser β :=
  fun view => (function view).bind fun f middle =>
    (argument middle).bind fun value rest => .deliver (f value) rest

/-- As `ap`, but the second parser is asked for only after the first one has matched. -/
def lazyAp (function : Parser (α → Except Fault β)) (argument : Unit → Parser α) : Parser β :=
  fun view => (function view).bind fun f middle =>
    (argument () middle).bind fun value rest => .deliver (f value) rest

/-- Ordered choice: the second parser runs only if the first does not match, on the same view. -/
def alt (first second : Parser α) : Parser α :=
  fun view => match first view with
    | .noMatch => second view
    | reply => reply

/-- Both in sequence, with the value of the second. -/
def andThen (first : Parser α) (second : Parser β) : Parser β :=
  (first.map fun _ => .ok Except.ok).ap second

/-- Both in sequence, with the value of the first. -/
def skip (first : Parser α) (second : Parser β) : Parser α :=
  (first.map fun value => .ok fun _ => .ok value).ap second

def lift2 (f : α → β → Except Fault γ) (first : Parser α) (second : Parser β) : Parser γ :=
  (first.map fun left => .ok fun right => f left right).ap second

def guard (test : α → Except Fault Bool) (parser : Parser α) : Parser α :=
  fun view => (parser view).bind fun value rest =>
    match test value with
    | .ok true => .matched value rest
    | .ok false => .noMatch
    | .error cause => .fault cause

end Parser

end Descent
