/-!
Classes of characters. A blank is one of 29 characters; digits and letters are those of ASCII.
-/

namespace Descent

/-- The blank characters as ascending ranges of code points, ends included. -/
def blankRanges : List (Nat × Nat) :=
  [(0x0009, 0x000D), (0x001C, 0x0020), (0x0085, 0x0085), (0x00A0, 0x00A0), (0x1680, 0x1680),
    (0x2000, 0x200A), (0x2028, 0x2029), (0x202F, 0x202F), (0x205F, 0x205F), (0x3000, 0x3000)]

def isBlank (char : Char) : Bool :=
  blankRanges.any fun range => range.1 ≤ char.toNat && char.toNat ≤ range.2

inductive CharClass where
  | blank
  | digit
  | letter
  | any
  | none
  | among (members : List Char)
  | except (excluded : CharClass)

namespace CharClass

def test : CharClass → Char → Bool
  | blank, char => isBlank char
  | digit, char => char.isDigit
  | letter, char => char.isAlpha
  | any, _ => true
  | none, _ => false
  | among members, char => members.contains char
  | except excluded, char => !excluded.test char

end CharClass

end Descent
