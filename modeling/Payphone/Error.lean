import Payphone.Bytes
import Payphone.Revision
import Payphone.Text

/-!
What can go wrong with a table, and how each cause is worded.
-/
namespace Payphone

/-- How a reader of structured input gave up. -/
inductive ReadFailure
  /-- The input does not match, but an alternative may. -/
  | mismatch (code : Nat)
  /-- The input does not match and no alternative may be tried. -/
  | fatal (code : Nat)
  /-- More input is needed: that many bytes, or an unknown number if zero. -/
  | incomplete (needed : Nat)
  /-- The input ends too early; what is left of it is too short for the next value. -/
  | ranOut (rest : Bytes)
deriving Repr, DecidableEq

def ReadFailure.describe : ReadFailure → String
  | .mismatch code => s!"Error({Text.decimal code})"
  | .fatal code => s!"Failure({Text.decimal code})"
  | .incomplete 0 => "Incomplete(Unknown)"
  | .incomplete needed => s!"Incomplete(Size({Text.decimal needed}))"
  | .ranOut rest =>
    "Error(Error \x7b input: [" ++ ", ".intercalate (rest.map fun x => Text.decimal x.toNat) ++ "], code: Eof \x7d)"

inductive TableError
  /-- The number of bytes is not the one that the catalog gives for the table. -/
  | sizeMismatch (table : UInt8) (expected actual : Nat)
  | unknownTable (table : UInt8)
  /-- The table is known but does not exist in the revision. -/
  | unsupportedRevision (table : UInt8) (revision : Revision)
  | bufferTooSmall (needed available : Nat)
  /-- The checksum found in the trailer is not the one of the payload. -/
  | checksumMismatch (expected calculated : UInt16)
  | invalidField (field reason : String)
  | parse (text : String)
  /-- A file could not be read or written, for the reason given by `text`. -/
  | io (text : String)
deriving Repr, DecidableEq

namespace TableError

def ofReadFailure (failure : ReadFailure) : TableError := parse failure.describe

def message : TableError → String
  | sizeMismatch table expected actual =>
    s!"Size mismatch for table 0x{Text.hexByte table}: expected {Text.decimal expected} bytes, got {Text.decimal actual}"
  | unknownTable table => s!"Unknown table: 0x{Text.hexByte table}"
  | unsupportedRevision table revision =>
    s!"Table 0x{Text.hexByte table} has no layout for revision {revision.label}"
  | bufferTooSmall needed available =>
    s!"Buffer too small: need {Text.decimal needed} bytes, have {Text.decimal available}"
  | checksumMismatch expected calculated =>
    s!"Checksum mismatch: expected 0x{Text.hexWord expected}, calculated 0x{Text.hexWord calculated}"
  | invalidField field reason => s!"Invalid {field}: {reason}"
  | parse text => s!"Parse error: {text}"
  | io text => s!"I/O error: {text}"

/-- The message of the error that this one wraps, if it wraps one. -/
def inner? : TableError → Option String
  | io text => some text
  | _ => none

end TableError

end Payphone
