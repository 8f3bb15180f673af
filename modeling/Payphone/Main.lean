import Payphone.CommandLine.Run

/-!
The program: takes a snapshot of the files that the command names, runs the command on it, and writes back the files
that came out changed.
-/
namespace Payphone

open CommandLine (Command)

namespace Program

def readBytes? (path : String) : IO (Option Bytes) := do
  try
    return some (← IO.FS.readBinFile path).toList
  catch _ => return none

def isFolder (path : String) : IO Bool := do
  try
    let _ ← IO.FS.realPath (path ++ "/.")
    return true
  catch _ => return false

/-- The files and folders that stand along a path. -/
def survey (text : String) : IO (List (Location × Node)) := do
  let .ok path := Path.parse text | return []
  let mut nodes := []
  let mut place := path.origin
  let mut way := if path.fromRoot then "/" else "./"
  for step in path.steps do
    place := place.follow step
    way := way ++ step.text
    if ← isFolder way then nodes := (place, .folder) :: nodes
    else if let some bytes ← readBytes? way then nodes := (place, .file bytes) :: nodes
    way := way ++ "/"
  return nodes

/-- What the command can meet on its paths. The lengths of folders are not asked for. -/
def snapshot (command : Command) : IO FileSystem := do
  return { nodes := (← (command.inputs ++ command.outputs).mapM survey).flatten }

/-- Writes the files of the command that `before` does not have with the same bytes. -/
def writeBack (command : Command) (before after : FileSystem) : IO Unit := do
  for path in command.outputs do
    if let .ok bytes := after.read path then
      if (before.read path).toOption != some bytes then
        IO.FS.writeBinFile path ⟨bytes.toArray⟩

end Program

end Payphone

def main (arguments : List String) : IO UInt32 := do
  let outcome ← match Payphone.CommandLine.Command.ofArguments arguments with
    | .ok command => do
      let before ← Payphone.Program.snapshot command
      let (outcome, after) := Payphone.CommandLine.run arguments before
      Payphone.Program.writeBack command before after
      pure outcome
    | .error _ => pure (Payphone.CommandLine.run arguments {}).1
  IO.print outcome.output
  IO.eprint outcome.errors
  return UInt32.ofNat outcome.exitCode
