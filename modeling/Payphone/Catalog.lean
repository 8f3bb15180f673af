import Payphone.Attempt
import Payphone.Revision

/-!
The catalog of tables: what each is called and how long its payload is in either revision.

A payload is checked against the catalog before any byte of it is read, and its length has to be the one given:
a longer payload is refused like a shorter one.
-/
namespace Payphone

structure TableInfo where
  id : UInt8
  name : String
  description : String
  /-- The payload length under MTR 1.x, if the table exists there. -/
  mtr1Length : Option Nat
  /-- The payload length under MTR 2.x, if the table exists there. -/
  mtr2Length : Option Nat
  /-- Whether a record carries the identifier in front of the payload. -/
  tagged : Bool
deriving Repr, DecidableEq

namespace TableInfo

def payloadLength? (info : TableInfo) : Revision → Option Nat
  | .mtr1 => info.mtr1Length
  | .mtr2 => info.mtr2Length

def payloadLength (info : TableInfo) (revision : Revision) : Except TableError Nat :=
  match info.payloadLength? revision with
  | some length => .ok length
  | none => .error (.unsupportedRevision info.id revision)

/-- The payload and the tag, if there is one. -/
def recordLength (info : TableInfo) (revision : Revision) : Except TableError Nat := do
  let length ← info.payloadLength revision
  return if info.tagged then length + 1 else length

end TableInfo

namespace Catalog

private def lcdTable (id : UInt8) (name : String) : TableInfo :=
  ⟨id, name, "NPA-NXX local call determination table", some 402, some 202, true⟩

/-- All tables, by ascending identifier. -/
def all : List TableInfo :=
  [⟨TableId.card, "CARD", "Card table (MTR 1.x)", some 660, none, false⟩,
   ⟨TableId.install, "INSTSV", "Installation parameters", some 45, some 45, false⟩,
   ⟨TableId.carrier, "CARRIER_EXP", "Expanded carrier table", some 1102, some 1102, true⟩,
   ⟨TableId.cardExpanded, "CARD_EXP", "Expanded card table (MTR 2.x)", none, some 1152, false⟩,
   lcdTable TableId.lcd1 "LCD_1", lcdTable TableId.lcd2 "LCD_2", lcdTable TableId.lcd3 "LCD_3"]

def lookup (id : UInt8) : Except TableError TableInfo :=
  match all.find? fun info => info.id == id with
  | some info => .ok info
  | none => .error (.unknownTable id)

def nameOf (id : UInt8) : Except TableError String := do
  return (← lookup id).name

def expectedSize (id : UInt8) (revision : Revision) : Except TableError Nat := do
  (← lookup id).payloadLength revision

def recordSize (id : UInt8) (revision : Revision) : Except TableError Nat := do
  (← lookup id).recordLength revision

/-- Refuses a payload whose length is not the one of the catalog. -/
def validate (id : UInt8) (revision : Revision) (actual : Nat) : Attempt Unit := do
  let info ← lookup id
  let expected ← info.payloadLength revision
  if actual ≠ expected then
    Attempt.note .warn s!"{info.name} table 0x{Text.hexByte id}: expected {Text.decimal expected} bytes, got {Text.decimal actual}"
    throw (.sizeMismatch id expected actual)
  Attempt.note .debug s!"Table 0x{Text.hexByte id} size {Text.decimal actual} OK for {revision.label}"

example : all.Pairwise fun x y => x.id < y.id := by decide

end Catalog

end Payphone
