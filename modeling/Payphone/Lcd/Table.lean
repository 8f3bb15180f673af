import Payphone.Lcd.AreaCode
import Payphone.Lcd.Packing
import Payphone.TableType

/-!
Tables of local call determination: a rate class for every exchange (NXX 200 to 999) of one area code (NPA).

The three tables of this kind differ in their identifier only. A payload is the area code and the classes in one of
three packings; the revision prescribes one of them, and `detect` takes the one that the length tells.
-/
namespace Payphone.Lcd

structure Table where
  tableId : UInt8
  npa : Nat
  packing : Packing
  /-- The class of exchange `200 + i` at index `i`. -/
  classes : Vector UInt8 exchangeCount
deriving Repr, DecidableEq

namespace Table

/-- Whether tables of local call determination are stored under `id`. -/
def ownsId (id : UInt8) : Bool := TableId.lcd1 ≤ id && id ≤ TableId.lcd3

def checkId (id : UInt8) : Except TableError Unit := do
  let _ ← Catalog.lookup id
  if !ownsId id then
    throw (.invalidField "table id" s!"0x{Text.hexByte id} is not an NPA-NXX table")

/-- The table with every exchange in class 0, which is local. -/
def new (id : UInt8) (npa : Nat) (packing : Packing) : Except TableError Table := do
  checkId id
  if ¬ IsAreaCode npa then
    throw (AreaCode.invalid s!"{Text.decimal npa} outside 200-999")
  return ⟨id, npa, packing, Vector.replicate exchangeCount 0⟩

/-! The payload. -/

/-- The header, then the classes in their places; there is a place for each of them. -/
def encode (t : Table) : Bytes :=
  AreaCode.encode t.npa ++ (t.packing.pack? (exchangeCount / t.packing.perByte) t.classes.toList).getD []

/-- Reads a payload; nothing if it is too short for its packing. -/
def read? (id : UInt8) (payload : Bytes) (packing : Packing) : Option (Except TableError Table) := do
  let first ← payload[0]?
  let second ← payload[1]?
  match AreaCode.decode first second with
  | .ok npa =>
    let classes ← packing.unpack? exchangeCount (payload.drop headerLength)
    return .ok ⟨id, npa, packing, classes⟩
  | .error e => return .error e

/-- Reads a payload of the length of its packing, which can be read. -/
def parse (id : UInt8) (payload : Bytes) (packing : Packing) : Attempt Table := do
  let table ← (read? id payload packing).getD (.error (.sizeMismatch id packing.payloadLength payload.length))
  Attempt.note .debug s!"Decoded NPA {Text.decimal table.npa} table 0x{Text.hexByte id} ({packing.name})"
  return table

/-- Reads a payload in the packing of the revision. -/
def decodeAs (id : UInt8) (payload : Bytes) (revision : Revision) : Attempt Table := do
  checkId id
  Catalog.validate id revision payload.length
  parse id payload (Packing.ofRevision revision)

/-- Reads a payload in the packing that its length tells. -/
def detect (id : UInt8) (payload : Bytes) : Attempt Table := do
  checkId id
  match Packing.ofPayloadLength? payload.length with
  | some packing => parse id payload packing
  | none => throw (.sizeMismatch id Packing.doubleCompressed.payloadLength payload.length)

instance : TableType Table where
  decode := decodeAs TableId.lcd1
  encode := encode
  tableId := tableId
  decodeAs := decodeAs

/-! Classes. -/

/-- The class of an exchange, if there is one. -/
def classOf? (t : Table) (nxx : Nat) : Option UInt8 :=
  if nxx < firstExchange then none else t.classes[nxx - firstExchange]?

/-- Sets the class of an exchange in place; the class has to fit the packing. Nothing is written before both checks
are passed. -/
def assignClass (nxx : Nat) (rate : UInt8) : ExceptT TableError (StateM Table) Unit := do
  let t ← get
  if rate > t.packing.maxClass then
    throw (.invalidField "rate class" s!"{Text.decimal rate.toNat} does not fit {t.packing.name}")
  if nxx < firstExchange ∨ lastExchange < nxx then
    throw (.invalidField "NXX"
      s!"{Text.decimal nxx} outside {Text.decimal firstExchange}-{Text.decimal lastExchange}")
  set { t with classes := t.classes.setIfInBounds (nxx - firstExchange) rate }

/-- The table with another class for an exchange. -/
def setClass (t : Table) (nxx : Nat) (rate : UInt8) : Except TableError Table :=
  let (result, edited) := (assignClass nxx rate).run.run t
  result.map fun _ => edited

/-- The table in another packing; a class too large for it becomes the largest. -/
def withPacking (t : Table) (packing : Packing) : Table :=
  { t with packing, classes := t.classes.map fun c => min c packing.maxClass }

end Table

end Payphone.Lcd
