/-!
JSON values. Numbers are integers, and the members of an object stand in the order in which their
keys were first given. Two objects are the same whatever the order of their members.
-/

namespace Descent

inductive Json where
  | null
  | bool (value : Bool)
  | num (value : Int)
  | str (value : String)
  | arr (values : List Json)
  | obj (members : List (String × Json))

namespace Json

/-- A key keeps its place when its value is replaced, and a new key goes to the end. -/
def put {α : Type} (key : String) (value : α) : List (String × α) → List (String × α)
  | [] => [(key, value)]
  | (present, old) :: rest =>
    if present = key then (key, value) :: rest else (present, old) :: put key value rest

/-- Of several values for one key the last one counts, at the place of the first one. -/
def merge {α : Type} (pairs : List (String × α)) : List (String × α) :=
  pairs.foldl (fun members pair => put pair.1 pair.2 members) []

def ofPairs (pairs : List (String × Json)) : Json :=
  obj (merge pairs)

mutual

/-- Equality up to the order of members. -/
def same : Json → Json → Bool
  | null, null => true
  | bool first, bool second => first == second
  | num first, num second => first == second
  | str first, str second => first == second
  | arr first, arr second => sameAll first second
  | obj first, obj second => first.length == second.length && sameMembers first second
  | _, _ => false

def sameAll : List Json → List Json → Bool
  | [], [] => true
  | first :: firsts, second :: seconds => same first second && sameAll firsts seconds
  | _, _ => false

/-- Each of the first members has a member of the same key and value among the others. -/
def sameMembers : List (String × Json) → List (String × Json) → Bool
  | [], _ => true
  | (key, value) :: rest, others =>
    (match others.lookup key with
      | some other => same value other
      | none => false) && sameMembers rest others

end

end Json

end Descent
