import Descent.Json.Basic
import Descent.Text.Quoted

/-!
A description of a JSON value that tells its whole structure, for diagnosis.
-/

namespace Descent.Json

mutual

def describe : Json → String
  | null => "JsonNull"
  | bool value => "JsonBool(value=" ++ (if value then "True" else "False") ++ ")"
  | num value => "JsonNumber(value=" ++ toString value ++ ")"
  | str value => "JsonString(value=" ++ quoted value ++ ")"
  | arr [value] => "JsonArray(values=(" ++ describe value ++ ",))"
  | arr values => "JsonArray(values=(" ++ ", ".intercalate (describeAll values) ++ "))"
  | obj members =>
    "JsonObject(members=mappingproxy(\x7b" ++ ", ".intercalate (describeMembers members) ++ "\x7d))"

def describeAll : List Json → List String
  | [] => []
  | value :: rest => describe value :: describeAll rest

def describeMembers : List (String × Json) → List String
  | [] => []
  | (key, value) :: rest => (quoted key ++ ": " ++ describe value) :: describeMembers rest

end

end Descent.Json
