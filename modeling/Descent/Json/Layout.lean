import Descent.Json.Basic

/-!
JSON values written as text. Strings go out as they are, with nothing escaped. Without an indent
there are no line breaks; with one, each entry of an array or object has a line of its own, indented
by its depth.
-/

namespace Descent.Json

/-- What is written around the entries of an array or object, and between them. -/
structure Spacing where
  opening : String
  between : String
  closing : String

def blanks (count : Int) : String :=
  String.ofList (List.replicate count.toNat ' ')

/-- A zero or negative indent breaks lines without indenting them. -/
def spacing (indent : Option Int) (depth : Nat) : Spacing :=
  match indent with
  | none => ⟨"", ", ", ""⟩
  | some width =>
    let outer := "\n" ++ blanks (width * depth)
    let inner := outer ++ blanks width
    ⟨inner, "," ++ inner, outer⟩

def enclose (spacing : Spacing) (left right : String) (entries : List String) : String :=
  left ++ spacing.opening ++ spacing.between.intercalate entries ++ spacing.closing ++ right

mutual

def renderAt (indent : Option Int) (depth : Nat) : Json → String
  | null => "null"
  | bool value => if value then "true" else "false"
  | num value => toString value
  | str value => "\"" ++ value ++ "\""
  | arr [] => "[]"
  | arr (value :: rest) =>
    enclose (spacing indent depth) "[" "]"
      (renderAt indent (depth + 1) value :: renderAll indent (depth + 1) rest)
  | obj [] => "\x7b\x7d"
  | obj ((key, value) :: rest) =>
    enclose (spacing indent depth) "\x7b" "\x7d"
      (("\"" ++ key ++ "\": " ++ renderAt indent (depth + 1) value) ::
        renderMembers indent (depth + 1) rest)

def renderAll (indent : Option Int) (depth : Nat) : List Json → List String
  | [] => []
  | value :: rest => renderAt indent depth value :: renderAll indent depth rest

def renderMembers (indent : Option Int) (depth : Nat) : List (String × Json) → List String
  | [] => []
  | (key, value) :: rest =>
    ("\"" ++ key ++ "\": " ++ renderAt indent depth value) :: renderMembers indent depth rest

end

def render (indent : Option Int) (value : Json) : String :=
  renderAt indent 0 value

end Descent.Json
