import Payphone.Card.Layout
import Payphone.TableType

/-!
Card tables of either revision.

A table in memory may hold any number of entries. Its payload always has the number of its revision: entries beyond
are left out, and missing ones are written as zeros.
-/
namespace Payphone.Card

structure Table where
  revision : Revision
  entries : List Entry
deriving Repr, DecidableEq, Inhabited

namespace Table

/-- The table of a revision with all slots empty. -/
def empty (revision : Revision) : Table := ⟨revision, List.replicate (entryCount revision) {}⟩

/-! The payload. -/

/-- The entries as they fill the slots of a payload. -/
def slots (t : Table) : List Entry := (List.range (entryCount t.revision)).map fun i => t.entries.getD i {}

def encode (t : Table) : Bytes := t.slots.flatMap fun e => e.write (layout t.revision)

/-- Reads the entries of a payload under a layout; nothing if one cannot be read. -/
def entries? (l : Layout) (payload : Bytes) : Option (List Entry) := do
  let parts ← payload.chunks? l.entryLength
  (parts.take l.entryCount).mapM (Entry.read? l)

/-- The table in a payload of the right length, where all entries can be read. -/
def ofPayload (revision : Revision) (payload : Bytes) : Table where
  revision := revision
  entries := (entries? (layout revision) payload).getD []

/-- The entries in use, each with its slot. -/
def active (t : Table) : List (Nat × Entry) :=
  (t.entries.zipIdx.filter fun p => !p.1.isUnused).map fun p => (p.2, p.1)

def decode (payload : Bytes) (revision : Revision) : Attempt Table := do
  Catalog.validate (Card.tableId revision) revision payload.length
  let table := ofPayload revision payload
  Attempt.note .debug s!"Decoded {revision.label} card table: {Text.decimal table.active.length} of {Text.decimal (entryCount revision)} entries in use"
  return table

instance : TableType Table where
  decode := decode
  encode := encode
  tableId t := Card.tableId t.revision

/-! Edits. -/

/-- Puts an entry into a slot, if the table has it. -/
def setEntry? (t : Table) (index : Nat) (entry : Entry) : Option Table :=
  if index < t.entries.length then some { t with entries := t.entries.set index entry } else none

/-- Sends the calls of one card to a carrier; a slot that the table does not have is passed over. -/
def setCarrierRef (t : Table) (index : Nat) (carrierRef : UInt8) : Table :=
  { t with entries := t.entries.modify index fun e => { e with carrierRef } }

/-- Clears verification flags on all entries. -/
def clearVerify (t : Table) (bits : UInt8) : Table :=
  { t with entries := t.entries.map fun e => { e with verify := e.verify &&& ~~~bits } }

/-- Sets verification flags on all entries. -/
def setVerify (t : Table) (bits : UInt8) : Table :=
  { t with entries := t.entries.map fun e => { e with verify := e.verify ||| bits } }

/-! Change of revision. -/

/-- The table under another revision, by way of its payload. -/
def convert (t : Table) (revision : Revision) : Attempt Table := do
  let payload ← Layout.convert t.encode (layout t.revision) (layout revision)
  return ofPayload revision payload

end Table

/-- A payload of one revision as one of another. -/
def convertPayload (payload : Bytes) (source target : Revision) : Attempt Bytes := do
  Catalog.validate (tableId source) source payload.length
  let sourceName ← Catalog.nameOf (tableId source)
  let targetName ← Catalog.nameOf (tableId target)
  Attempt.note .info s!"Converting {sourceName} table ({source.label}) to {targetName} ({target.label})"
  Layout.convert payload (layout source) (layout target)

end Payphone.Card
