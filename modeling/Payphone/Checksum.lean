import Payphone.Attempt
import Payphone.Bytes

/-!
The checksum of a stored record.

The register holds sixteen bits and is read least significant bit first, so the polynomial x¹⁶ + x¹⁵ + x² + 1
appears reversed as `0xa001`. A byte is added into the low half and shifted out in eight steps (`absorb`).

A stamped record carries the checksum of its payload as a trailer of two bytes, low byte first. Taking the trailer
off never looks at the verdict: the payload is given together with the stored and the calculated checksum, and
`Stamped.check` turns a difference into an error.
-/
namespace Payphone.Checksum

/-- The polynomial, lowest coefficient in the highest bit. -/
def polynomial : UInt16 := 0xa001

/-- The register that stored records start from. -/
def defaultSeed : UInt16 := 0

/-- The number of bytes of a trailer. -/
def trailerLength : Nat := 2

/-- One step: the lowest bit leaves the register, and if it is set the polynomial is added. -/
def shift (register : UInt16) : UInt16 :=
  if register &&& 1 = 1 then (register >>> 1) ^^^ polynomial else register >>> 1

/-- Eight steps after the byte is added to the low half. -/
def absorb (register : UInt16) (byte : UInt8) : UInt16 :=
  Nat.repeat shift 8 (register ^^^ byte.toUInt16)

/-- The register after all of `data`, started from `seed`. -/
def crc16 (seed : UInt16) (data : Bytes) : UInt16 := data.foldl absorb seed

/-- The register after each piece of data, each going on from the one before. -/
def crc16Pieces (seed : UInt16) : List Bytes → List UInt16
  | [] => []
  | piece :: rest => crc16 seed piece :: crc16Pieces (crc16 seed piece) rest

/-! Stamped records. -/

def stampWith (seed : UInt16) (record : Bytes) : Bytes := record ++ Bytes.ofWord (crc16 seed record)

def stamp (record : Bytes) : Bytes := stampWith defaultSeed record

/-- A record taken from its trailer, with the checksum found there and the one of the payload. -/
structure Stamped where
  payload : Bytes
  stored : UInt16
  calculated : UInt16
deriving Repr, DecidableEq

namespace Stamped

def isValid (s : Stamped) : Bool := s.stored == s.calculated

/-- The payload if the two checksums agree. -/
def check (s : Stamped) : Except TableError Bytes :=
  if s.isValid then .ok s.payload else .error (.checksumMismatch s.stored s.calculated)

end Stamped

/-- Splits off the trailer, whatever it says. -/
def split (seed : UInt16) (record : Bytes) : Stamped :=
  let payload := record.take (record.length - trailerLength)
  ⟨payload, Bytes.word (record.drop (record.length - trailerLength)), crc16 seed payload⟩

def unstampWith (seed : UInt16) (record : Bytes) : Attempt Stamped := do
  if record.length < trailerLength then
    throw (.bufferTooSmall trailerLength record.length)
  let s := split seed record
  unless s.isValid do
    Attempt.note .warn s!"Checksum mismatch over {Text.decimal s.payload.length} bytes: stored 0x{Text.hexWord s.stored}, calculated 0x{Text.hexWord s.calculated}"
  return s

def unstamp (record : Bytes) : Attempt Stamped := unstampWith defaultSeed record

/-- The check value of the nine ASCII digits. -/
example : crc16 0 [49, 50, 51, 52, 53, 54, 55, 56, 57] = 0xbb3d := by decide +kernel

/-- The trailer has the low byte first. -/
example : (stamp [49, 50, 51, 52, 53, 54, 55, 56, 57]).drop 9 = [0x3d, 0xbb] := by decide +kernel

end Payphone.Checksum
