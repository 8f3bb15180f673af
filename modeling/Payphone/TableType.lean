import Payphone.Catalog
import Payphone.FixedWidth

/-!
Types of tables: each has a payload form that is exact to the byte. The plainest is the one of the installation
parameters, forty-five bytes that are stored and handed on as they are.
-/
namespace Payphone

/-- Decodes a payload stored under `id` by a decoder for tables of one identifier, and refuses a table that has
another. -/
def decodeOwn {T : Type} (decode : Bytes → Revision → Attempt T) (tableId : T → UInt8) (id : UInt8)
    (payload : Bytes) (revision : Revision) : Attempt T := do
  let _ ← Catalog.lookup id
  let table ← decode payload revision
  if tableId table ≠ id then
    throw (.invalidField "table id" s!"0x{Text.hexByte id} does not hold a 0x{Text.hexByte (tableId table)} record")
  return table

class TableType (T : Type) where
  /-- Reads a payload that has the length the catalog gives for the revision. -/
  decode : Bytes → Revision → Attempt T
  /-- The payload, without a tag. -/
  encode : T → Bytes
  tableId : T → UInt8
  /-- Reads a payload stored under an identifier, which the table keeps. -/
  decodeAs : UInt8 → Bytes → Revision → Attempt T := decodeOwn decode tableId

namespace Install

def payloadLength : Nat := 45

structure Parameters where
  raw : Vector UInt8 payloadLength := Vector.replicate payloadLength 0
deriving Repr, DecidableEq, Inhabited

namespace Parameters

def encode (p : Parameters) : Bytes := (FixedWidth.bytes payloadLength).encode p.raw

def decode (payload : Bytes) (revision : Revision) : Attempt Parameters := do
  Catalog.validate TableId.install revision payload.length
  return ⟨(FixedWidth.bytes payloadLength).decode payload⟩

instance : TableType Parameters where
  decode := decode
  encode := encode
  tableId _ := TableId.install

end Parameters

end Install

end Payphone
