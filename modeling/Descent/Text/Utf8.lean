/-!
Strict decoding of UTF-8, one byte at a time. Between the bytes of a character the decoder remembers
how many bytes are still owed and the range of the next one. The ranges leave out overlong forms,
surrogates and numbers beyond the last code point. A text can also be clipped to a number of bytes.
-/

namespace Descent.Utf8

inductive Reason where
  | startByte
  | continuationByte
  | unexpectedEnd

def Reason.message : Reason → String
  | startByte => "invalid start byte"
  | continuationByte => "invalid continuation byte"
  | unexpectedEnd => "unexpected end of data"

/-- The bytes at fault: the position and value of the first, and how many they are. -/
structure BadBytes where
  position : Nat
  first : UInt8
  count : Nat
  reason : Reason

/-- A character of which the first bytes have been read. -/
structure Begun where
  position : Nat
  first : UInt8
  count : Nat
  owed : Nat
  low : Nat
  high : Nat
  value : Nat

def Begun.bad (begun : Begun) (reason : Reason) : BadBytes :=
  ⟨begun.position, begun.first, begun.count, reason⟩

/-- The state after the first byte of a character of several bytes. -/
def start? (position : Nat) (byte : UInt8) : Option Begun :=
  let first := byte.toNat
  if 0xC2 ≤ first ∧ first ≤ 0xDF then some ⟨position, byte, 1, 1, 0x80, 0xBF, first - 0xC0⟩
  else if first = 0xE0 then some ⟨position, byte, 1, 2, 0xA0, 0xBF, 0⟩
  else if first = 0xED then some ⟨position, byte, 1, 2, 0x80, 0x9F, 0xD⟩
  else if 0xE1 ≤ first ∧ first ≤ 0xEF then some ⟨position, byte, 1, 2, 0x80, 0xBF, first - 0xE0⟩
  else if first = 0xF0 then some ⟨position, byte, 1, 3, 0x90, 0xBF, 0⟩
  else if 0xF1 ≤ first ∧ first ≤ 0xF3 then some ⟨position, byte, 1, 3, 0x80, 0xBF, first - 0xF0⟩
  else if first = 0xF4 then some ⟨position, byte, 1, 3, 0x80, 0x8F, 4⟩
  else none

/-- The characters are collected in reverse. -/
def scan (position : Nat) (begun : Option Begun) (found : List Char) :
    List UInt8 → Except BadBytes (List Char)
  | [] => match begun with
    | none => .ok found.reverse
    | some begun => .error (begun.bad .unexpectedEnd)
  | byte :: rest => match begun with
    | none =>
      if byte.toNat < 0x80 then scan (position + 1) none (Char.ofNat byte.toNat :: found) rest
      else match start? position byte with
        | none => .error ⟨position, byte, 1, .startByte⟩
        | some begun => scan (position + 1) (some begun) found rest
    | some begun =>
      if begun.low ≤ byte.toNat ∧ byte.toNat ≤ begun.high then
        let value := begun.value * 0x40 + (byte.toNat - 0x80)
        if begun.owed ≤ 1 then scan (position + 1) none (Char.ofNat value :: found) rest
        else
          scan (position + 1)
            (some ⟨begun.position, begun.first, begun.count + 1, begun.owed - 1, 0x80, 0xBF, value⟩)
            found rest
      else .error (begun.bad .continuationByte)

def decode (bytes : List UInt8) : Except BadBytes (List Char) :=
  scan 0 none [] bytes

/-- As much of a text as fits into a number of bytes. A replacement character stands for the one
that the limit cuts apart. -/
def clip : Nat → List Char → List Char
  | _, [] => []
  | bytes, char :: rest =>
    if char.utf8Size ≤ bytes then char :: clip (bytes - char.utf8Size) rest
    else if bytes = 0 then [] else ['\ufffd']

end Descent.Utf8
