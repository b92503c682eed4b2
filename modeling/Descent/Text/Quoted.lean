import Descent.Text.Hidden

/-!
The quoted form of a text. Single quotes delimit it, unless the text holds a single quote and no
double quote. Inside, the delimiter and the backslash are preceded by a backslash, and characters
that would not show are written as escapes.
-/

namespace Descent.Quoted

def delimiter (content : List Char) : Char :=
  if content.contains '\'' && !content.contains '"' then '"' else '\''

/-- The last hexadecimal digits of a number, as many as the width. -/
def hexDigits : Nat → Nat → List Char
  | 0, _ => []
  | width + 1, value => hexDigits width (value / 16) ++ [Nat.digitChar (value % 16)]

def codePoint (value : Nat) : List Char :=
  if value < 0x100 then 'x' :: hexDigits 2 value
  else if value < 0x10000 then 'u' :: hexDigits 4 value
  else 'U' :: hexDigits 8 value

def escape (delimiter char : Char) : List Char :=
  if char = '\\' ∨ char = delimiter then ['\\', char]
  else if char = '\t' then ['\\', 't']
  else if char = '\n' then ['\\', 'n']
  else if char = '\r' then ['\\', 'r']
  else if isHidden char then '\\' :: codePoint char.toNat
  else [char]

def encode (content : List Char) : List Char :=
  let mark := delimiter content
  mark :: content.flatMap (escape mark) ++ [mark]

end Descent.Quoted

namespace Descent

def quoted (text : String) : String :=
  String.ofList (Quoted.encode text.toList)

end Descent
