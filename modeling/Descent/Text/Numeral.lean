import Descent.Text.CharClass

/-!
Reading integers. A plain numeral is a non-empty run of ASCII digits. A typed numeral, as a person
writes it on a command line, may have blanks around it, a sign, single underscores between digits
and the decimal digits of any script.
-/

namespace Descent.Numeral

def plain? (digits : List Char) : Option Nat :=
  if digits ≠ [] ∧ digits.all Char.isDigit then some (Nat.ofDigitChars 10 digits 0) else none

/-- The code points of the zeros of all scripts; each is followed by its script's other nine
digits. -/
def zeros : List Nat :=
  [0x0030, 0x0660, 0x06F0, 0x07C0, 0x0966, 0x09E6, 0x0A66, 0x0AE6, 0x0B66, 0x0BE6, 0x0C66,
    0x0CE6, 0x0D66, 0x0DE6, 0x0E50, 0x0ED0, 0x0F20, 0x1040, 0x1090, 0x17E0, 0x1810, 0x1946,
    0x19D0, 0x1A80, 0x1A90, 0x1B50, 0x1BB0, 0x1C40, 0x1C50, 0xA620, 0xA8D0, 0xA900, 0xA9D0,
    0xA9F0, 0xAA50, 0xABF0, 0xFF10, 0x104A0, 0x10D30, 0x11066, 0x110F0, 0x11136, 0x111D0,
    0x112F0, 0x11450, 0x114D0, 0x11650, 0x116C0, 0x11730, 0x118E0, 0x11950, 0x11C50, 0x11D50,
    0x11DA0, 0x16A60, 0x16AC0, 0x16B50, 0x1D7CE, 0x1D7D8, 0x1D7E2, 0x1D7EC, 0x1D7F6, 0x1E140,
    0x1E2F0, 0x1E950, 0x1FBF0]

def scriptDigit? (char : Char) : Option Nat :=
  (zeros.find? fun first => first ≤ char.toNat && char.toNat < first + 10).map (char.toNat - ·)

/-- A character beyond ASCII stands for the blank or the ASCII digit that it amounts to. -/
def simplify (char : Char) : Char :=
  if char.toNat < 0x7F then char
  else if isBlank char then ' '
  else match scriptDigit? char with
    | some digit => Nat.digitChar digit
    | none => char

/-- A text of ASCII characters alone has these six blanks. -/
def isPad (char : Char) : Bool :=
  char == ' ' || (0x09 ≤ char.toNat && char.toNat ≤ 0x0D)

/-- A text is refused that has more digits than this. -/
def digitLimit : Nat := 4300

/-- Digits with single underscores between them. -/
def grouped? (text : List Char) : Option Nat :=
  let groups := text.splitOn '_'
  let digits := groups.flatten
  if groups.all (!·.isEmpty) ∧ digits.length ≤ digitLimit then plain? digits else none

def signed? : List Char → Option Int
  | '-' :: digits => (grouped? digits).map fun value => -(value : Int)
  | '+' :: digits => (grouped? digits).map Int.ofNat
  | digits => (grouped? digits).map Int.ofNat

def typed? (text : String) : Option Int :=
  let trimmed := (text.toList.map simplify).dropWhile isPad
  signed? (trimmed.reverse.dropWhile isPad).reverse

end Descent.Numeral
