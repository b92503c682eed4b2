import Descent.Json.Grammar
import Descent.Value

/-!
Descriptions of parsers as data. A pattern may mention other parsers by references. Some are
resolved when the pattern is built, and the others are entered when it runs.
-/

namespace Descent

/-- The parsers of the JSON grammar that a pattern can mention. -/
inductive JsonRule where
  | null | bool | number | stringLiteral | string | array | object | value | whitespace

/-- What a traversal makes of each of its texts. -/
inductive Piece where
  | char | literal | maybe

inductive Pattern (κ : Type) where
  | char (text : String)
  | literal (text : String)
  | satisfy (chars : CharClass)
  | span (chars : CharClass)
  | maybe (text : String)
  | just (value : Value)
  | empty
  | map (transform : Transform) (pattern : Pattern κ)
  | always (value : Value) (pattern : Pattern κ)
  | ap (function argument : Pattern κ)
  | lazyAp (function argument : Pattern κ)
  | alt (first second : Pattern κ)
  | andThen (first second : Pattern κ)
  | skip (first second : Pattern κ)
  | lift2 (combine : Combine) (first second : Pattern κ)
  | sequence (patterns : List (Pattern κ))
  | traverse (piece : Piece) (texts : List String)
  | guard (check : Check) (pattern : Pattern κ)
  | many (element : Pattern κ)
  | sepBy (separator element : Pattern κ)
  | rule (which : JsonRule)
  | reference (target : κ)

def JsonRule.parser : JsonRule → Parser Value
  | null => Json.Grammar.null.map fun value => .ok (.json value)
  | bool => Json.Grammar.bool.map fun value => .ok (.json value)
  | number => Json.Grammar.number.map fun value => .ok (.json value)
  | stringLiteral => Json.Grammar.stringLiteral.map fun content => .ok (.view content)
  | string => Json.Grammar.string.map fun value => .ok (.json value)
  | array => Json.Grammar.array.map fun value => .ok (.json value)
  | object => Json.Grammar.object.map fun value => .ok (.json value)
  | value => Json.Grammar.value.map fun value => .ok (.json value)
  | whitespace => Parser.whitespace.map fun blanks => .ok (.view blanks)

/-- The next character must be the whole text, so a text of any other length never matches. -/
def Piece.character (text : String) : Parser Value :=
  match text.toList with
  | [expected] => (Parser.char expected).always (.text text)
  | _ => Parser.empty

def Piece.parser (text : String) : Piece → Parser Value
  | char => character text
  | literal => (Parser.literal text).map fun found => .ok (.text found)
  | maybe => (character text).alt (Parser.just .null)

namespace Pattern

variable {κ ι : Type}

mutual

/-- The described parser, given what entering a reference does. -/
def eval (enter : κ → Parser Value) : Pattern κ → Parser Value
  | char text => Piece.char.parser text
  | literal text => Piece.literal.parser text
  | satisfy chars =>
    (Parser.satisfy chars.test).map fun char => .ok (.text (String.singleton char))
  | span chars => (Parser.span chars.test).map fun found => .ok (.view found)
  | maybe text => Piece.maybe.parser text
  | just value => Parser.just value
  | empty => Parser.empty
  | map transform pattern => (pattern.eval enter).map transform.apply
  | always value pattern => (pattern.eval enter).always value
  | ap function argument =>
    ((function.eval enter).map fun value => .ok value.apply).ap (argument.eval enter)
  | lazyAp function argument =>
    ((function.eval enter).map fun value => .ok value.apply).lazyAp fun _ => argument.eval enter
  | alt first second => (first.eval enter).alt (second.eval enter)
  | andThen first second => (first.eval enter).andThen (second.eval enter)
  | skip first second => (first.eval enter).skip (second.eval enter)
  | lift2 combine first second =>
    Parser.lift2 combine.apply (first.eval enter) (second.eval enter)
  | sequence patterns =>
    (Parser.sequence (evalAll enter patterns)).map fun values => .ok (.list values)
  | traverse piece texts =>
    (Parser.traverse piece.parser texts).map fun values => .ok (.list values)
  | guard check pattern => (pattern.eval enter).guard check.holds
  | many element => (Parser.many (element.eval enter)).map fun values => .ok (.list values)
  | sepBy separator element =>
    (Parser.sepBy (separator.eval enter) (element.eval enter)).map fun values => .ok (.list values)
  | rule which => which.parser
  | reference target => enter target

def evalAll (enter : κ → Parser Value) : List (Pattern κ) → List (Parser Value)
  | [] => []
  | pattern :: rest => pattern.eval enter :: evalAll enter rest

end

mutual

/-- Puts in place of each reference what the scope holds for it. What `lazyAp` asks for only later
keeps its references, in the form that `later` gives them, whatever the scope holds by now. -/
def resolve (scope : κ → Except Fault (Pattern ι)) (later : κ → ι) :
    Pattern κ → Except Fault (Pattern ι)
  | char text => .ok (.char text)
  | literal text => .ok (.literal text)
  | satisfy chars => .ok (.satisfy chars)
  | span chars => .ok (.span chars)
  | maybe text => .ok (.maybe text)
  | just value => .ok (.just value)
  | empty => .ok .empty
  | map transform pattern => do return .map transform (← pattern.resolve scope later)
  | always value pattern => do return .always value (← pattern.resolve scope later)
  | ap function argument => do
    return .ap (← function.resolve scope later) (← argument.resolve scope later)
  | lazyAp function argument => do
    return .lazyAp (← function.resolve scope later)
      (← argument.resolve (fun target => .ok (.reference (later target))) later)
  | alt first second => do
    return .alt (← first.resolve scope later) (← second.resolve scope later)
  | andThen first second => do
    return .andThen (← first.resolve scope later) (← second.resolve scope later)
  | skip first second => do
    return .skip (← first.resolve scope later) (← second.resolve scope later)
  | lift2 combine first second => do
    return .lift2 combine (← first.resolve scope later) (← second.resolve scope later)
  | sequence patterns => do return .sequence (← resolveAll scope later patterns)
  | traverse piece texts => .ok (.traverse piece texts)
  | guard check pattern => do return .guard check (← pattern.resolve scope later)
  | many element => do return .many (← element.resolve scope later)
  | sepBy separator element => do
    return .sepBy (← separator.resolve scope later) (← element.resolve scope later)
  | rule which => .ok (.rule which)
  | reference target => scope target

def resolveAll (scope : κ → Except Fault (Pattern ι)) (later : κ → ι) :
    List (Pattern κ) → Except Fault (List (Pattern ι))
  | [] => .ok []
  | pattern :: rest => do
    return (← pattern.resolve scope later) :: (← resolveAll scope later rest)

end

end Pattern

end Descent
