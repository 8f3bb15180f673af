import Payphone.Text

/-!
Byte strings as hexadecimal text.

1. `encode` and `spaced` write two lowercase digits for each byte, without and with blanks between bytes.
2. `parse` reads digits of either case; white space may stand anywhere, also between the two digits of a byte.
   Its failures come in a fixed order: nothing to read, an odd number of bytes of text, the first bad digit.
3. `dump` sets sixteen bytes a line between their offset and their printable characters.
-/
namespace Payphone.Hex

/-! Writing. -/

def encode (b : Bytes) : String := String.join (b.map Text.hexByte)

def spaced (b : Bytes) : String := " ".intercalate (b.map Text.hexByte)

/-! Reading. -/

inductive ParseError
  | empty
  | oddLength (length : Nat)
  | badDigit (byte : UInt8) (position : Nat)
deriving Repr, DecidableEq

def ParseError.message : ParseError → String
  | .empty => "Empty hex string"
  | .oddLength length => s!"Odd number of hex characters: {Text.decimal length}"
  | .badDigit byte position =>
    s!"Hex decoding error: Invalid character {Text.quoteByte byte} at position {Text.decimal position}"

/-- The value of an ASCII digit of either case. -/
def digitValue? (x : UInt8) : Option Nat :=
  if 48 ≤ x ∧ x ≤ 57 then some (x.toNat - 48)
  else if 65 ≤ x ∧ x ≤ 70 then some (x.toNat - 55)
  else if 97 ≤ x ∧ x ≤ 102 then some (x.toNat - 87)
  else none

def digitAt (position : Nat) (x : UInt8) : Except ParseError Nat :=
  match digitValue? x with
  | some v => .ok v
  | none => .error (.badDigit x position)

/-- Two digits a byte, high one first; `position` is where the text starts. A single digit left over is dropped,
which `parse` rules out beforehand. -/
def decodeDigits (position : Nat) : Bytes → Except ParseError Bytes
  | high :: low :: rest => do
    let h ← digitAt position high
    let l ← digitAt (position + 1) low
    let tail ← decodeDigits (position + 2) rest
    return UInt8.ofNat (16 * h + l) :: tail
  | _ => .ok []

def parse (text : String) : Except ParseError Bytes :=
  let digits := Text.utf8Chars (text.toList.filter fun c => !Text.isBlank c)
  if digits.isEmpty then .error .empty
  else if digits.length % 2 = 1 then .error (.oddLength digits.length)
  else decodeDigits 0 digits

/-! Dumps. -/

def bytesPerLine : Nat := 16

/-- A byte of printable ASCII as its character, any other as a full stop. -/
def printable (x : UInt8) : Char := if 0x20 ≤ x ∧ x < 0x7f then Char.ofNat x.toNat else '.'

/-- The offset in decimal, the bytes with the columns of missing ones left blank, and their characters. -/
def dumpLine (offset : Nat) (chunk : Bytes) : String :=
  Text.zeroPadded 3 offset ++ ": " ++ String.join (chunk.map fun x => Text.hexByte x ++ ", ") ++
    Text.blanks (4 * (bytesPerLine - chunk.length)) ++ String.ofList (chunk.map printable)

/-- The lines of a dump whose first byte stands at `offset`. -/
def dumpLines (offset : Nat) (b : Bytes) : List String :=
  if b.isEmpty then []
  else dumpLine offset (b.take bytesPerLine) :: dumpLines (offset + bytesPerLine) (b.drop bytesPerLine)
termination_by b.length
decreasing_by
  have : b ≠ [] := by simpa using ‹¬ b.isEmpty›
  have := List.length_pos_iff.2 this
  simp [bytesPerLine]
  omega

def dump (b : Bytes) : String := "\n".intercalate (dumpLines 0 b)

end Payphone.Hex
