import Payphone.Carrier.Entry
import Payphone.TableType

/-!
The expanded carrier table: nine default selectors, thirty-three carriers and four spare bytes.

A table in memory may hold any number of carriers. Its payload always has thirty-three: those beyond are left out,
and missing ones are written as entries of zeros. The spare bytes are kept as they are.
-/
namespace Payphone.Carrier

/-- The number of default selectors. -/
def defaultCount : Nat := 9

/-- The number of carriers in a payload. -/
def slotCount : Nat := 33

def spareLength : Nat := 4

structure Table where
  /-- The carrier for each kind of call that names none. -/
  defaults : Vector UInt8 defaultCount := Vector.replicate defaultCount 0
  carriers : List Entry := List.replicate slotCount {}
  spare : Vector UInt8 spareLength := Vector.replicate spareLength 0
deriving Repr, DecidableEq, Inhabited

namespace Table

/-! The payload. -/

/-- What a payload holds: the selectors, all slots and the spare bytes. -/
abbrev Image : Type := Vector UInt8 defaultCount × Vector Entry slotCount × Vector UInt8 spareLength

def imageForm : FixedWidth Image :=
  (FixedWidth.bytes defaultCount).pair ((Entry.form.vector slotCount).pair (FixedWidth.bytes spareLength))

/-- The carriers as they fill the slots of a payload. -/
def slots (t : Table) : Vector Entry slotCount := Vector.ofFn fun i => t.carriers.getD i {}

def toImage (t : Table) : Image := (t.defaults, t.slots, t.spare)

def encode (t : Table) : Bytes := imageForm.encode t.toImage

/-- Reads the table that a payload begins with. -/
def read : Reader Table := do
  let defaults ← Reader.bytes defaultCount
  let carriers ← Reader.count Entry.read slotCount
  let spare ← Reader.bytes spareLength
  return ⟨defaults, carriers, spare⟩

/-- The carriers that are configured, each with its slot. -/
def active (t : Table) : List (Nat × Entry) :=
  (t.carriers.zipIdx.filter fun p => !p.1.isUnused).map fun p => (p.2, p.1)

def decode (payload : Bytes) (revision : Revision) : Attempt Table := do
  Catalog.validate TableId.carrier revision payload.length
  let (table, _) ← (read.run payload).mapError TableError.ofReadFailure
  Attempt.note .debug s!"Decoded carrier table: {Text.decimal table.active.length} of {Text.decimal slotCount} slots configured"
  return table

instance : TableType Table where
  decode := decode
  encode := encode
  tableId _ := TableId.carrier

/-! Records: the payload behind its tag. -/

/-- The number of bytes of a record. -/
def recordLength : Nat := imageForm.width + 1

example : recordLength = 1103 := rfl

def toRecord (t : Table) : Bytes := TableId.carrier :: t.encode

def ofRecord (record : Bytes) (revision : Revision) : Attempt Table :=
  match record with
  | [] => throw (.sizeMismatch TableId.carrier recordLength 0)
  | tag :: payload =>
    if tag = TableId.carrier then decode payload revision
    else do
      let _ ← Catalog.lookup tag
      throw (.invalidField "tag"
        s!"0x{Text.hexByte tag} is not a carrier record (0x{Text.hexByte TableId.carrier})")

/-! Edits. -/

/-- Puts an entry into a slot in place, if the table has it; the bounds that a refusal names are those of a payload. -/
def assignEntry (index : Nat) (entry : Entry) : ExceptT TableError (StateM Table) Unit := do
  let t ← get
  if t.carriers.length ≤ index then
    throw (.invalidField "carrier index" s!"{Text.decimal index} outside 0-{Text.decimal (slotCount - 1)}")
  set { t with carriers := t.carriers.set index entry }

/-- The table with another entry in a slot. -/
def replaceEntry (t : Table) (index : Nat) (entry : Entry) : Except TableError Table :=
  let (result, edited) := (assignEntry index entry).run.run t
  result.map fun _ => edited

/-- Sets the prompt of a slot, if the table has it. -/
def setPrompt? (t : Table) (index : Nat) (text : String) : Option Table :=
  t.carriers[index]?.map fun e => { t with carriers := t.carriers.set index (e.withPrompt text) }

def resetDefaults (t : Table) : Table := { t with defaults := Vector.replicate defaultCount 0 }

/-- The prompts of the ten standard carriers, in the order of their slots. -/
def standardPrompts : List String :=
  ["C0 PIC  Inter-LATA", "C1 Coin Inter-LATA", "C2 Card Inter-LATA", "C3 PIC  Intra-LATA", "C4 Coin Intra-LATA",
   "C5 Card Intra-LATA", "C6 PIC  Local", "C7 Coin Local", "C8 Card Local", "CARRIER 9"]

/-- The standard entry of a slot; beyond the standard carriers, the entry that is there. -/
def standardEntry (index : Nat) (entry : Entry) : Entry :=
  match standardPrompts[index]? with
  | some prompt => Entry.standard (UInt8.ofNat index) prompt
  | none => entry

/-- Clears the default selectors and puts the standard carriers into the first slots. -/
def provision (t : Table) : Table :=
  { t.resetDefaults with carriers := t.carriers.mapIdx standardEntry }

end Table

end Payphone.Carrier
