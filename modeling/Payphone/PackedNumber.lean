import Payphone.Text

/-!
Telephone numbers packed two digits a byte, high half first.

Two conventions are in use and do not read each other. In a terminated number the digits stand for themselves and
the half-byte `0xe` ends it. A number packed for call screening writes the digit zero as ten, so that zero marks an
empty place. Both readers are told the capacity of a destination that keeps one place for an end mark, so they give
at most `capacity - 1` characters.
-/
namespace Payphone.PackedNumber

/-- The half-byte that ends a number. -/
def terminator : Nat := 0xe

/-- The half-byte that stands for the digit zero in a screening number. -/
def zeroCode : Nat := 0xa

def nibbles (b : Bytes) : List Nat := b.flatMap fun x => [x.toNat / 16, x.toNat % 16]

/-! Terminated numbers. -/

/-- The character `n` places after the digit zero: beyond nine, those that follow the digits in ASCII. -/
def digit (n : Nat) : Char := Char.ofNat (48 + n)

def readTerminated (number : Bytes) (capacity : Nat) : String :=
  String.ofList ((((nibbles number).takeWhile (· != terminator)).take (capacity - 1)).map digit)

/-! Screening numbers. -/

/-- The characters of the sixteen half-bytes. -/
def screeningDigits : List Char :=
  ['\x00', '1', '2', '3', '4', '5', '6', '7', '8', '9', '0', 'B', 'C', 'D', 'E', 'F']

def readScreening (number : Bytes) (capacity : Nat) : String :=
  String.ofList (((nibbles number).take (capacity - 1)).map fun n => screeningDigits.getD n '\x00')

/-- The code of one byte of text: its low half, except that the digit zero has a code of its own. -/
def screeningCode (x : UInt8) : Nat := if x = 48 then zeroCode else x.toNat % 16

/-- Writes digit `i` into its half of a byte: into the high half of a byte begun anew, or into the low half of one
whose high half is there already. Nothing if there is no such byte. -/
def putCode? (destination : Bytes) (i code : Nat) : Option Bytes :=
  destination[i / 2]?.map fun x =>
    destination.set (i / 2) (if i % 2 = 0 then UInt8.ofNat code <<< 4 else x ||| UInt8.ofNat code)

/-- Writes the codes one behind the other, from the first byte on. -/
def putCodes? (destination : Bytes) (codes : List Nat) : Option Bytes :=
  codes.zipIdx.foldlM (fun b entry => putCode? b entry.2 entry.1) destination

/-- The number of bytes of text packed, and what the destination then holds. -/
structure Packed where
  consumed : Nat
  bytes : Bytes
deriving Repr, DecidableEq

/-- Packs as much of the text as `destination` has room for. It is cleared first, so nothing of what it held before
stays. -/
def packScreening (text : String) (destination : Bytes) : Packed :=
  let taken := (Text.utf8 text).take (2 * destination.length)
  ⟨taken.length, (putCodes? (destination.map fun _ => 0) (taken.map screeningCode)).getD []⟩

example : readTerminated [0x40, 0x8e, 0x12] 16 = "408" := by decide
example : readScreening [0xa0] 3 = "0\x00" := by decide
example : packScreening "4085551212" [0, 0] = ⟨4, [0x4a, 0x85]⟩ := by decide

end Payphone.PackedNumber
