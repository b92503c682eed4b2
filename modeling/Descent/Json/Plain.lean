import Descent.Json.Basic

/-!
Plain data: what a JSON value is without the distinction of its own types, made of nothing,
booleans, integers, texts, lists and dictionaries.
-/

namespace Descent

inductive Plain where
  | nothing
  | bool (value : Bool)
  | int (value : Int)
  | text (value : String)
  | list (values : List Plain)
  | dict (entries : List (String × Plain))

namespace Json

mutual

def toPlain : Json → Plain
  | null => .nothing
  | bool value => .bool value
  | num value => .int value
  | str value => .text value
  | arr values => .list (toPlainAll values)
  | obj members => .dict (toPlainMembers members)

def toPlainAll : List Json → List Plain
  | [] => []
  | value :: rest => toPlain value :: toPlainAll rest

def toPlainMembers : List (String × Json) → List (String × Plain)
  | [] => []
  | (key, value) :: rest => (key, toPlain value) :: toPlainMembers rest

end

end Json

end Descent
