import Payphone.Checksum
import Payphone.Disk
import Payphone.Hex
import Payphone.TableType

/-!
Tables in files.

A table file holds a payload and nothing else; a stamped file holds a payload and its checksum. The length of a
file is compared with the catalog before its bytes are looked at. A wrong checksum does not keep a table from being
loaded: the table is given together with both checksums, and `StampedTable.verified` refuses it.
-/
namespace Payphone.Store

/-! Payloads. -/

/-- Reads a file that has to have a given length. The length is asked for first and looked at again in what was read,
in case the file was changed in between. -/
def readSized (path : String) (id : UInt8) (expected : Nat) : Disk Bytes := do
  let actual ← Disk.length path
  if actual ≠ expected then
    Disk.note .warn s!"{path}: {Text.decimal actual} bytes, table 0x{Text.hexByte id} needs {Text.decimal expected}"
    Disk.fail (.sizeMismatch id expected actual)
  else
    let bytes ← Disk.read path
    if bytes.length ≠ expected then
      Disk.fail (.sizeMismatch id expected bytes.length)
    else
      Disk.note .debug s!"{path}: {Hex.spaced (bytes.take 16)} ..."
      return bytes

def readPayload (path : String) (id : UInt8) (revision : Revision) : Disk Bytes := do
  let info ← Catalog.lookup id
  let expected ← info.payloadLength revision
  let bytes ← readSized path id expected
  Disk.note .info s!"Loaded {info.name} ({Text.decimal bytes.length} bytes) from {path}"
  return bytes

def writePayload (path : String) (payload : Bytes) : Disk Unit := do
  Disk.write path payload
  Disk.note .info s!"Wrote {Text.decimal payload.length} bytes to {path}"

/-! Tables. -/

/-- A table from a stamped file, with the checksum found there and the one of the payload. -/
structure StampedTable (T : Type) where
  table : T
  stored : UInt16
  calculated : UInt16

namespace StampedTable

variable {T : Type}

def isValid (s : StampedTable T) : Bool := s.stored == s.calculated

/-- The table if the two checksums agree. -/
def verified (s : StampedTable T) : Except TableError T :=
  if s.isValid then .ok s.table else .error (.checksumMismatch s.stored s.calculated)

end StampedTable

section

variable {T : Type} [TableType T]

def load (path : String) (id : UInt8) (revision : Revision) : Disk T := do
  let payload ← readPayload path id revision
  TableType.decodeAs id payload revision

def save (path : String) (table : T) : Disk Unit := writePayload path (TableType.encode table)

def loadStamped (path : String) (id : UInt8) (revision : Revision) : Disk (StampedTable T) := do
  let payloadLength ← Catalog.expectedSize id revision
  let bytes ← readSized path id (payloadLength + Checksum.trailerLength)
  let stamped ← Checksum.unstamp bytes
  unless stamped.isValid do
    Disk.note .warn s!"{path}: checksum mismatch, loading anyway"
  let table ← TableType.decodeAs id stamped.payload revision
  return ⟨table, stamped.stored, stamped.calculated⟩

def saveStamped (path : String) (table : T) : Disk Unit :=
  writePayload path (Checksum.stamp (TableType.encode table))

end

end Payphone.Store
