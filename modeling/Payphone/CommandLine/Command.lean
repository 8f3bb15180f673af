import Payphone.CommandLine.Arguments
import Payphone.CommandLine.Number
import Payphone.Revision

/-!
The commands and their arguments.
-/
namespace Payphone.CommandLine

structure CarrierSettings where
  input : String := ""
  revision : Revision := .mtr2
  provision : Bool := false
  output : Option String := none
  json : Bool := false
deriving Repr, DecidableEq

structure CardSettings where
  input : String := ""
  revision : Revision := .mtr2
  json : Bool := false
deriving Repr, DecidableEq

structure ConvertSettings where
  input : String := ""
  output : String := ""
  source : Revision := .mtr2
  target : Revision := .mtr1
deriving Repr, DecidableEq

structure LcdSettings where
  input : String := ""
  table : UInt8 := TableId.lcd1
  raw : Bool := false
  json : Bool := false
deriving Repr, DecidableEq

structure ChecksumSettings where
  input : String := ""
  seed : UInt16 := 0
  verify : Bool := false
deriving Repr, DecidableEq

inductive Command
  /-- Lists the tables of the catalog. -/
  | tables
  /-- Shows a carrier table, provisioned and saved on request. -/
  | carrier (settings : CarrierSettings)
  | card (settings : CardSettings)
  /-- Converts a card table file from one revision to another. -/
  | convertCard (settings : ConvertSettings)
  | lcd (settings : LcdSettings)
  /-- Prints or verifies the checksum of a file. -/
  | checksum (settings : ChecksumSettings)
  | callType (byte : UInt8)
  /-- Dumps a file in hexadecimal. -/
  | dump (input : String)
deriving Repr, DecidableEq

/-- The paths that a command reads. -/
def Command.inputs : Command → List String
  | tables => []
  | carrier s => [s.input]
  | card s => [s.input]
  | convertCard s => [s.input]
  | lcd s => [s.input]
  | checksum s => [s.input]
  | callType _ => []
  | dump input => [input]

/-- The paths that a command may write. -/
def Command.outputs : Command → List String
  | carrier s => s.output.toList
  | convertCard s => [s.output]
  | _ => []

/-! Values. -/

/-- Any text but the empty one is a path. -/
def path? (text : String) : Option String := if text.isEmpty then none else some text

def revision? (text : String) : Option Revision :=
  if text == "mtr1" then some .mtr1 else if text == "mtr2" then some .mtr2 else none

/-! Grammars. -/

def carrierGrammar : Grammar CarrierSettings where
  start := {}
  positionals := [⟨"input", fun v s => (path? v).map fun input => { s with input }⟩]
  switches :=
    [⟨"revision", some 'r', .value fun v s => (revision? v).map fun revision => { s with revision }⟩,
     ⟨"provision", none, .flag fun s => { s with provision := true }⟩,
     ⟨"output", some 'o', .value fun v s => (path? v).map fun output => { s with output := some output }⟩,
     ⟨"json", none, .flag fun s => { s with json := true }⟩]

def cardGrammar : Grammar CardSettings where
  start := {}
  positionals := [⟨"input", fun v s => (path? v).map fun input => { s with input }⟩]
  switches :=
    [⟨"revision", some 'r', .value fun v s => (revision? v).map fun revision => { s with revision }⟩,
     ⟨"json", none, .flag fun s => { s with json := true }⟩]

def convertGrammar : Grammar ConvertSettings where
  start := {}
  positionals :=
    [⟨"input", fun v s => (path? v).map fun input => { s with input }⟩,
     ⟨"output", fun v s => (path? v).map fun output => { s with output }⟩]
  switches :=
    [⟨"from", none, .value fun v s => (revision? v).map fun source => { s with source }⟩,
     ⟨"to", none, .value fun v s => (revision? v).map fun target => { s with target }⟩]

def lcdGrammar : Grammar LcdSettings where
  start := {}
  positionals := [⟨"input", fun v s => (path? v).map fun input => { s with input }⟩]
  switches :=
    [⟨"table", some 't', .value fun v s => (byte? v).map fun table => { s with table }⟩,
     ⟨"raw", none, .flag fun s => { s with raw := true }⟩,
     ⟨"json", none, .flag fun s => { s with json := true }⟩]

def checksumGrammar : Grammar ChecksumSettings where
  start := {}
  positionals := [⟨"input", fun v s => (path? v).map fun input => { s with input }⟩]
  switches :=
    [⟨"seed", some 's', .value fun v s => (word? v).map fun seed => { s with seed }⟩,
     ⟨"verify", none, .flag fun s => { s with verify := true }⟩]

def tablesGrammar : Grammar Unit := ⟨(), [], []⟩

def callTypeGrammar : Grammar UInt8 := ⟨0, [], [⟨"byte", fun v _ => byte? v⟩]⟩

def dumpGrammar : Grammar String := ⟨"", [], [⟨"input", fun v _ => path? v⟩]⟩

/-- The command of a name, with its arguments read. -/
def Command.ofName (name : String) (arguments : List String) : Except Refusal Command :=
  match name with
  | "tables" => (tablesGrammar.read arguments).map fun _ => .tables
  | "carrier" => (carrierGrammar.read arguments).map .carrier
  | "card" => (cardGrammar.read arguments).map .card
  | "convert-card" => (convertGrammar.read arguments).map .convertCard
  | "lcd" => (lcdGrammar.read arguments).map .lcd
  | "checksum" => (checksumGrammar.read arguments).map .checksum
  | "call-type" => (callTypeGrammar.read arguments).map .callType
  | "dump" => (dumpGrammar.read arguments).map .dump
  | _ => .error (.usage (.unknownCommand name))

def commandNames : List String :=
  ["tables", "carrier", "card", "convert-card", "lcd", "checksum", "call-type", "dump"]

/-- What `help` answers: help, for all commands or for one that exists. -/
def helpRefusal : List String → Refusal
  | [] => .help
  | name :: rest =>
    if !(commandNames.contains name || name == "help") then .usage (.unknownCommand name)
    else match rest with
      | [] => .help
      | extra :: _ => .usage (.unknownCommand extra)

def Command.ofArguments : List String → Except Refusal Command
  | [] => .error (.usage .missingCommand)
  | name :: rest =>
    if name == "--help" || name.toList.take 2 == ['-', 'h'] then .error .help
    else if name == "help" then .error (helpRefusal rest)
    else Command.ofName name rest

def usage : String :=
  "Usage: payphone <COMMAND>\n\nCommands: " ++ ", ".intercalate commandNames ++ "\n"

end Payphone.CommandLine
