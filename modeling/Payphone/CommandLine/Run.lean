import Payphone.Card.Report
import Payphone.Carrier.Report
import Payphone.CommandLine.Command
import Payphone.Export
import Payphone.Labels
import Payphone.Lcd.Report
import Payphone.Store

/-!
Running a command on files: what it prints, how it ends and which file it writes.

A command stops at its first failure. What it printed before stays printed, and the failure is reported with the
causes behind it. The exit code is 0 on success, 1 after a failure and 2 if the arguments are wrong. Printing itself is
taken not to fail (`Console.print`).
-/
namespace Payphone.CommandLine

/-! Failures with their causes. -/

structure Failure where
  message : String
  /-- The causes, each behind the one before. -/
  causes : List String := []
deriving Repr, DecidableEq

namespace Failure

def ofError (e : TableError) : Failure := ⟨e.message, e.inner?.toList⟩

/-- The same failure as the cause of a wider one. -/
def within (message : String) (f : Failure) : Failure := ⟨message, f.message :: f.causes⟩

/-- One line for each cause, numbered if there are several. -/
def causeLines : List String → List String
  | [] => []
  | [cause] => ["    " ++ cause]
  | causes => causes.mapIdx fun i cause => Text.rightAligned 5 i ++ ": " ++ cause

def report (f : Failure) : String :=
  "Error: " ++ f.message ++ "\n" ++
    if f.causes.isEmpty then ""
    else "\nCaused by:\n" ++ String.join ((causeLines f.causes).map (· ++ "\n"))

end Failure

/-! Sessions: the files and what was printed. -/

structure Session where
  files : FileSystem
  output : String := ""

abbrev Console : Type → Type := ExceptT Failure (StateM Session)

namespace Console

variable {α : Type}

/-- Prints a text. Standard output is taken to accept everything: one that is closed or full would end the run here. -/
def print (text : String) : Console Unit := modify fun s => { s with output := s.output ++ text }

def printLine (text : String) : Console Unit := print (text ++ "\n")

/-- Passes a failure of a table on as it is. -/
def ofResult : Except TableError α → Console α
  | .ok a => pure a
  | .error e => throw (Failure.ofError e)

/-- Passes a failure on as the cause of what was being done. -/
def during (doing : String) : Except TableError α → Console α
  | .ok a => pure a
  | .error e => throw ((Failure.ofError e).within doing)

/-- Runs a computation on the files of the session. -/
def onDisk (x : Disk α) : Console (Except TableError α) := do
  let s ← get
  let (attempt, files) := x s.files
  set { s with files }
  return attempt.result

/-- The bytes of a file of any kind. -/
def readFile (path : String) : Console Bytes := do
  match (← get).files.read path with
  | .ok bytes => return bytes
  | .error e => throw ⟨s!"reading {path}", [e.message]⟩

end Console

open Console

/-! The commands. -/

def sizeColumn (info : TableInfo) (revision : Revision) : String :=
  match info.payloadLength? revision with
  | some length => Text.rightAligned 8 length
  | none => Text.padLeft 8 ' ' "-"

def catalogLine (info : TableInfo) : String :=
  s!"0x{Text.hexByte info.id}   {Text.padRight 12 info.name} {sizeColumn info .mtr1} {sizeColumn info .mtr2}  {info.description}"

def runTables : Console Unit := do
  printLine "Id     Name          MTR 1.x  MTR 2.x  Description"
  print (String.join (Catalog.all.map fun info => catalogLine info ++ "\n"))

def runCarrier (s : CarrierSettings) : Console Unit := do
  let loaded ← during s!"loading carrier table {s.input}" (← onDisk (Store.load s.input TableId.carrier s.revision))
  let table : Carrier.Table := if s.provision then loaded.provision else loaded
  if let some path := s.output then
    during s!"writing {path}" (← onDisk (Store.save path table))
  if s.json then printLine (Export.carrierTable table).render else print table.report

def runCard (s : CardSettings) : Console Unit := do
  let table : Card.Table ←
    during s!"loading card table {s.input}" (← onDisk (Store.load s.input (Card.tableId s.revision) s.revision))
  if s.json then printLine (Export.cardTable table).render else print table.report

def runConvertCard (s : ConvertSettings) : Console Unit := do
  let payload ← during s!"loading card table {s.input}"
    (← onDisk (Store.readPayload s.input (Card.tableId s.source) s.source))
  let converted ← ofResult (Card.convertPayload payload s.source s.target).result
  during s!"writing {s.output}" (← onDisk (Store.writePayload s.output converted))
  printLine s!"Converted {s.source.label} ({Text.decimal payload.length} bytes) to {s.target.label} ({Text.decimal converted.length} bytes)"

def runLcd (s : LcdSettings) : Console Unit := do
  let bytes ← readFile s.input
  let table ← during s!"decoding {s.input}" (Lcd.Table.detect s.table bytes).result
  if s.raw then printLine (Hex.dump table.encode)
  else if s.json then printLine (Export.lcdTable table).render
  else
    printLine (table.title (← ofResult (Catalog.nameOf s.table)))
    print table.report

def runChecksum (s : ChecksumSettings) : Console Unit := do
  let bytes ← readFile s.input
  if s.verify then
    let stamped ← ofResult (Checksum.unstampWith s.seed bytes).result
    printLine s!"stored 0x{Text.hexWord stamped.stored}, calculated 0x{Text.hexWord stamped.calculated} over {Text.decimal stamped.payload.length} bytes"
    let _ ← ofResult stamped.check
    printLine "OK"
  else printLine s!"0x{Text.hexWord (Checksum.crc16 s.seed bytes)}"

def runCallType (byte : UInt8) : Console Unit := do
  printLine (← ofResult (CallType.render byte 64))

def runDump (input : String) : Console Unit := do
  printLine (Hex.dump (← readFile input))

def Command.execute : Command → Console Unit
  | tables => runTables
  | carrier settings => runCarrier settings
  | card settings => runCard settings
  | convertCard settings => runConvertCard settings
  | lcd settings => runLcd settings
  | checksum settings => runChecksum settings
  | callType byte => runCallType byte
  | dump input => runDump input

/-! Outcomes. -/

/-- How a run ended and what it wrote to its two streams. -/
structure Outcome where
  exitCode : Nat
  output : String
  errors : String
deriving Repr, DecidableEq

def Command.run (c : Command) (files : FileSystem) : Outcome × FileSystem :=
  match c.execute.run.run { files } with
  | (.ok (), s) => (⟨0, s.output, ""⟩, s.files)
  | (.error f, s) => (⟨1, s.output, f.report⟩, s.files)

/-- Runs the command that the arguments give. -/
def run (arguments : List String) (files : FileSystem) : Outcome × FileSystem :=
  match Command.ofArguments arguments with
  | .ok command => command.run files
  | .error .help => (⟨0, usage, ""⟩, files)
  | .error (.usage e) => (⟨2, "", s!"error: {e.message}\n"⟩, files)

end Payphone.CommandLine
