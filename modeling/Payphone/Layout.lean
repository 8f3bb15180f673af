import Payphone.Attempt
import Payphone.Bytes

/-!
Tables of equal entries, laid out by a list of named fields, and the change from one layout to another.

An entry is read by the names of its fields (`part?`) and put together field by field (`assemble`).

Remapping never looks at what fields mean. Each field of the target takes the bytes of the first source field of
the same name, cut to its own length, and its fill byte wherever there are none: because the source has no such
field, has fewer bytes in it, or has no such entry. Fields are written in the order of the list, so where two
overlap the later one stands; bytes that no field covers are zero.
-/
namespace Payphone

/-- A run of bytes within an entry. -/
structure Field where
  name : String
  offset : Nat
  length : Nat
  /-- What the field holds where nothing is given for it. -/
  fill : UInt8
deriving Repr, DecidableEq

namespace Field

/-- The first position behind the field. -/
def stop (f : Field) : Nat := f.offset + f.length

/-- The bytes of the field in an entry. -/
def slice (f : Field) (entry : Bytes) : Bytes := (entry.drop f.offset).take f.length

/-- What is given for the field, filled up to its length. -/
def pad (f : Field) (bytes : Bytes) : Bytes := bytes ++ List.replicate (f.length - bytes.length) f.fill

end Field

structure Layout where
  tableId : UInt8
  revision : Revision
  entryCount : Nat
  fields : List Field
deriving Repr, DecidableEq

namespace Layout

/-- An entry ends with the last of its fields. -/
def entryLength (l : Layout) : Nat := (l.fields.map Field.stop).foldl max 0

def tableLength (l : Layout) : Nat := l.entryLength * l.entryCount

/-- The first field of that name. -/
def field? (l : Layout) (name : String) : Option Field := l.fields.find? fun f => f.name == name

/-- Entry `i` of a table, if the layout has it and the bytes hold it to its end. -/
def entry? (l : Layout) (table : Bytes) (i : Nat) : Option Bytes :=
  if i < l.entryCount ∧ (i + 1) * l.entryLength ≤ table.length then
    some ((table.drop (i * l.entryLength)).take l.entryLength)
  else none

/-! Fields by name.

A field that the layout does not have is empty; one that sticks out of the entry gives nothing. -/

def part? (l : Layout) (name : String) (entry : Bytes) : Option Bytes :=
  match l.field? name with
  | some f => entry.slice? f.offset f.length
  | none => some []

/-- A field that is read as one byte, the first of it. -/
def byte? (l : Layout) (name : String) (entry : Bytes) : Option UInt8 := (l.part? name entry).map (·.headD 0)

/-- A field that has to have `n` bytes. -/
def array? (l : Layout) (n : Nat) (name : String) (entry : Bytes) : Option (Vector UInt8 n) := do
  let bytes ← l.part? name entry
  if h : bytes.length = n then return ⟨bytes.toArray, h⟩ else none

/-- An entry with what is given for each of its fields, at most the length of the field. -/
def assemble (l : Layout) (given : Field → Bytes) : Bytes :=
  l.fields.foldl (fun out f => out.overwrite f.offset (f.pad (given f))) (List.replicate l.entryLength 0)

/-! Remapping. -/

/-- The bytes that an entry under `source` gives for a field of another layout: at most its length. -/
def given (source : Layout) (entry : Option Bytes) (f : Field) : Bytes :=
  match entry, source.field? f.name with
  | some bytes, some g => (g.slice bytes).take f.length
  | _, _ => []

/-- One entry under `target`. -/
def remapEntry (source target : Layout) (entry : Option Bytes) : Bytes := target.assemble (given source entry)

/-- A table under `source` as one under `target`. -/
def remap (table : Bytes) (source target : Layout) : Bytes :=
  (List.range target.entryCount).flatMap fun i => remapEntry source target (source.entry? table i)

/-! Remapping between layouts of any kind.

Layouts may come from anywhere, so every access is checked here: to the source field within its entry, to the
target field within the entry that is built, and to the entries, which a target whose entries are empty does not
divide its table into. An access that fails gives nothing. -/

def given? (source : Layout) (entry : Option Bytes) (f : Field) : Option Bytes :=
  match entry, source.field? f.name with
  | some bytes, some g => (bytes.slice? g.offset g.length).map fun part => part.take f.length
  | _, _ => some []

def remapEntry? (source target : Layout) (entry : Option Bytes) : Option Bytes :=
  target.fields.foldlM (fun out f => do out.overwrite? f.offset (f.pad (← given? source entry f)))
    (List.replicate target.entryLength 0)

/-- The number of entries that a table is divided into. -/
def chunkCount? (l : Layout) : Option Nat := if l.entryLength = 0 then none else some (l.tableLength / l.entryLength)

def remap? (table : Bytes) (source target : Layout) : Option Bytes := do
  let entries ← (List.range (← target.chunkCount?)).mapM fun i => remapEntry? source target (source.entry? table i)
  return entries.flatten

/-- Says what remapping leaves out, if it leaves out anything. -/
def narrowing (source target : Layout) : List Log.Record :=
  let entries := source.entryCount - target.entryCount
  let bytes := source.entryLength - target.entryLength
  if 0 < entries ∨ 0 < bytes then
    [⟨.debug, s!"Narrowing {source.revision.name} -> {target.revision.name}: {Text.decimal entries} entries dropped, {Text.decimal bytes} bytes per entry dropped"⟩]
  else []

/-- Remaps a table and logs what is left out. -/
def convert (table : Bytes) (source target : Layout) : Attempt Bytes := do
  Attempt.notes (narrowing source target)
  return remap table source target

/-- Remaps between layouts of any kind; nothing if an access fails. -/
def convert? (table : Bytes) (source target : Layout) : Option (Attempt Bytes) :=
  (remap? table source target).map fun out => do
    Attempt.notes (narrowing source target)
    return out

end Layout

end Payphone
