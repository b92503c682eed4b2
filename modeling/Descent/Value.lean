import Descent.Json.Basic
import Descent.Reply
import Descent.Text.Numeral

/-!
The values that described parsers compute with, and the functions on them. Functions are values too:
each is one of the named functions, or one of them that waits for its second argument.
-/

namespace Descent

/-- Functions of one value. The last three of the first line yield a function. -/
inductive Transform where
  | identity | box | constant | pairWith | addTo
  | length | text | reverse | int | double | negate

inductive Value where
  | null
  | bool (value : Bool)
  | int (value : Int)
  | text (value : String)
  | list (items : List Value)
  | view (value : View)
  | json (value : Json)
  | function (transform : Transform)
  /-- The function whose result is always this value. -/
  | constantly (result : Value)
  /-- The function that pairs this value with its argument. -/
  | pairing (left : Value)
  /-- The function that adds its argument to this value. -/
  | adding (left : Value)

inductive Combine where
  | pair | left | right | add | cons | snoc

inductive Check where
  | notEmpty | even | always | never
  | maxLength (bound : Int)
  | between (least greatest : Int)

namespace Value

def length : Value → Except Fault Nat
  | text value => .ok value.length
  | view value => .ok value.length
  | list items => .ok items.length
  | _ => .error .wrongKind

/-- The sum of two integers, or two texts or lists joined. -/
def add : Value → Value → Except Fault Value
  | int first, int second => .ok (int (first + second))
  | text first, text second => .ok (text (first ++ second))
  | list first, list second => .ok (list (first ++ second))
  | _, _ => .error .wrongKind

def readInt (digits : List Char) : Except Fault Value :=
  match Numeral.plain? digits with
  | some value => .ok (int value)
  | none => .error .notNumeral

end Value

def Transform.apply : Transform → Value → Except Fault Value
  | identity, value => .ok value
  | box, value => .ok (.list [value])
  | constant, value => .ok (.constantly value)
  | pairWith, value => .ok (.pairing value)
  | addTo, value => .ok (.adding value)
  | length, value => value.length.map fun count => .int count
  | text, .view value => .ok (.text value.text)
  | text, .text value => .ok (.text value)
  | reverse, .list items => .ok (.list items.reverse)
  | int, .view value => Value.readInt value.chars
  | int, .text value => Value.readInt value.toList
  | double, .int value => .ok (.int (2 * value))
  | negate, .int value => .ok (.int (-value))
  | _, _ => .error .wrongKind

def Combine.apply : Combine → Value → Value → Except Fault Value
  | pair, first, second => .ok (.list [first, second])
  | left, first, _ => .ok first
  | right, _, second => .ok second
  | add, first, second => first.add second
  | cons, first, .list items => .ok (.list (first :: items))
  | snoc, .list items, last => .ok (.list (items ++ [last]))
  | _, _, _ => .error .wrongKind

def Value.apply : Value → Value → Except Fault Value
  | .function transform, argument => transform.apply argument
  | constantly result, _ => .ok result
  | pairing first, argument => .ok (.list [first, argument])
  | adding first, argument => first.add argument
  | _, _ => .error .wrongKind

def Check.holds : Check → Value → Except Fault Bool
  | notEmpty, value => value.length.map (· != 0)
  | even, .int value => .ok (value % 2 == 0)
  | always, _ => .ok true
  | never, _ => .ok false
  | maxLength bound, value => value.length.map fun count => count ≤ bound
  | between least greatest, .int value => .ok (least ≤ value && value ≤ greatest)
  | _, _ => .error .wrongKind

end Descent
