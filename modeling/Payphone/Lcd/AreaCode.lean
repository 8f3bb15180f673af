import Payphone.Error
import Payphone.PackedNumber

/-!
The header of a table: the area code (NPA) as three packed digits and an end mark, so that 408 is `40 8e`.
-/
namespace Payphone.Lcd

/-- The half-byte behind the digits. -/
def areaCodeMark : Nat := PackedNumber.terminator

/-- Area codes run from 200 to 999. -/
def IsAreaCode (npa : Nat) : Prop := 200 ≤ npa ∧ npa ≤ 999

instance (npa : Nat) : Decidable (IsAreaCode npa) := inferInstanceAs (Decidable (_ ∧ _))

namespace AreaCode

def invalid (reason : String) : TableError := .invalidField "NPA" reason

/-- The number that three decimal digits stand for. -/
def ofDigits? : List Nat → Option Nat
  | [a, b, c] => if a < 10 ∧ b < 10 ∧ c < 10 then some (100 * a + 10 * b + c) else none
  | _ => none

/-- Reads the two bytes of a header: the first digit is checked first, then the end mark, then the digits. -/
def decode (first second : UInt8) : Except TableError Nat :=
  if first < 0x20 ∨ 0x99 < first then
    .error (invalid s!"first byte 0x{Text.hexByte first} outside 200-999")
  else if second.toNat % 16 ≠ areaCodeMark then
    .error (invalid s!"check digit 0x{Text.hex 1 (second.toNat % 16)}, expected 0xe")
  else
    match ofDigits? ((PackedNumber.nibbles [first, second]).takeWhile (· != PackedNumber.terminator)) with
    | some npa => .ok npa
    | none =>
      .error (invalid s!"not three decimal digits: \"{PackedNumber.readTerminated [first, second] 4}\"")

/-- The last three decimal digits of `npa` and the end mark. -/
def encode (npa : Nat) : Bytes :=
  [UInt8.ofNat (16 * (npa / 100 % 10) + npa / 10 % 10), UInt8.ofNat (16 * (npa % 10) + areaCodeMark)]

example : encode 408 = [0x40, 0x8e] := by decide

end AreaCode

end Payphone.Lcd
