import Payphone.CommandLine.Run
import Payphone.Proofs.Disk
import Payphone.Proofs.Store.Loading

/-!
Commands step by step.

1. A step that succeeds hands on what it answers and the session that it leaves; a step that fails is the end of the
   command (`run_bind_of_ok`, `run_bind_of_error`).
2. A computation that only looks at files leaves them alone, whatever it prints and however it ends (`Looks`), and so do
   all commands that have no output (`looks_execute`).
3. How its computation ended decides the exit code of a run (`run_of_ok`, `run_of_error`).
-/
namespace Payphone.CommandLine

namespace Console

variable {α β : Type} {s s' : Session}

/-! One step after the other. -/

theorem run_bind_of_ok {x : Console α} {a : α} (h : x.run.run s = (.ok a, s')) (next : α → Console β) :
    (x >>= next).run.run s = (next a).run.run s' := by
  rw [ExceptT.run_bind, StateT.run_bind, h]
  rfl

theorem run_bind_of_error {x : Console α} {f : Failure} (h : x.run.run s = (.error f, s')) (next : α → Console β) :
    (x >>= next).run.run s = (.error f, s') := by
  rw [ExceptT.run_bind, StateT.run_bind, h]
  rfl

theorem run_print (text : String) (s : Session) :
    (print text).run.run s = (.ok (), { s with output := s.output ++ text }) := rfl

theorem run_onDisk (x : Disk α) (s : Session) :
    (onDisk x).run.run s = (.ok (x.result s.files), { s with files := x.files s.files }) := rfl

theorem run_ofResult_of_ok {x : Except TableError α} {a : α} (h : x = .ok a) (next : α → Console β) :
    (ofResult x >>= next).run.run s = (next a).run.run s := by
  rw [h]
  rfl

theorem run_ofResult_of_error {x : Except TableError α} {e : TableError} (h : x = .error e) (next : α → Console β) :
    (ofResult x >>= next).run.run s = (.error (Failure.ofError e), s) := by
  rw [h]
  rfl

theorem run_during_of_ok {x : Except TableError α} {a : α} (h : x = .ok a) (doing : String) (next : α → Console β) :
    (during doing x >>= next).run.run s = (next a).run.run s := by
  rw [h]
  rfl

theorem run_during_of_error {x : Except TableError α} {e : TableError} (h : x = .error e) (doing : String)
    (next : α → Console β) : (during doing x >>= next).run.run s = (.error ((Failure.ofError e).within doing), s) := by
  rw [h]
  rfl

section

variable {files : FileSystem} {output : String}

/-- What is done with files, if it succeeds. -/
theorem run_onDisk_of_ok {x : Disk α} {a : α} (h : x.result files = .ok a) (doing : String) (next : α → Console β) :
    (onDisk x >>= fun answer => during doing answer >>= next).run.run ⟨files, output⟩ =
      (next a).run.run ⟨x.files files, output⟩ := by
  rw [run_bind_of_ok (run_onDisk x _), run_during_of_ok h]

/-- What is done with files, if it fails. -/
theorem run_onDisk_of_error {x : Disk α} {e : TableError} (h : x.result files = .error e) (doing : String)
    (next : α → Console β) :
    (onDisk x >>= fun answer => during doing answer >>= next).run.run ⟨files, output⟩ =
      (.error ((Failure.ofError e).within doing), ⟨x.files files, output⟩) := by
  rw [run_bind_of_ok (run_onDisk x _), run_during_of_error h]

theorem run_readFile_of_ok {path : String} {bytes : Bytes} (h : files.read path = .ok bytes)
    (next : Bytes → Console α) :
    (readFile path >>= next).run.run ⟨files, output⟩ = (next bytes).run.run ⟨files, output⟩ := by
  have step : (readFile path).run.run ⟨files, output⟩ = (.ok bytes, ⟨files, output⟩) := by
    rw [readFile, run_get_bind, h]
    rfl
  exact run_bind_of_ok step next

theorem run_readFile_of_error {path : String} {e : FileError} (h : files.read path = .error e)
    (next : Bytes → Console α) : (readFile path >>= next).run.run ⟨files, output⟩ =
      (.error ⟨s!"reading {path}", [e.message]⟩, ⟨files, output⟩) := by
  have step : (readFile path).run.run ⟨files, output⟩ =
      (.error ⟨s!"reading {path}", [e.message]⟩, ⟨files, output⟩) := by
    rw [readFile, run_get_bind, h]
    rfl
  exact run_bind_of_error step next

end

/-! Computations that only look at files. -/

/-- The computation leaves the files alone, whether it succeeds or fails. -/
def Looks (x : Console α) : Prop := ∀ s, (x.run.run s).2.files = s.files

namespace Looks

theorem pure (a : α) : Looks (Pure.pure a) := fun _ => rfl

theorem fail (f : Failure) : Looks (throw f : Console α) := fun _ => rfl

theorem print (text : String) : Looks (Console.print text) := fun _ => rfl

theorem ofResult (x : Except TableError α) : Looks (Console.ofResult x) := by
  cases x with
  | ok a => exact pure a
  | error e => exact fail _

theorem during (doing : String) (x : Except TableError α) : Looks (Console.during doing x) := by
  cases x with
  | ok a => exact pure a
  | error e => exact fail _

theorem onDisk {x : Disk α} (h : Disk.ReadOnly x) : Looks (Console.onDisk x) := fun s => h s.files

theorem bind {x : Console α} {next : α → Console β} (hx : Looks x) (hnext : ∀ a, Looks (next a)) :
    Looks (x >>= next) := by
  intro s
  have left := hx s
  rcases h : x.run.run s with ⟨answer, s'⟩
  rw [h] at left
  cases answer with
  | ok a => rw [run_bind_of_ok h, hnext a s', left]
  | error f => rw [run_bind_of_error h, left]

theorem ite {c : Prop} [Decidable c] {x y : Console α} (hx : Looks x) (hy : Looks y) : Looks (if c then x else y) := by
  by_cases h : c
  · rw [if_pos h]
    exact hx
  · rw [if_neg h]
    exact hy

theorem readFile (path : String) : Looks (Console.readFile path) := by
  intro s
  rw [Console.readFile, run_get_bind]
  cases s.files.read path <;> rfl

end Looks

end Console

open Console

/-! Commands without an output. -/

theorem looks_tables : Looks runTables := (Looks.print _).bind fun _ => Looks.print _

/-- A carrier table is shown; nothing is saved. -/
theorem looks_carrier {s : CarrierSettings} (h : s.output = none) : Looks (runCarrier s) := by
  refine (Looks.onDisk (Store.readOnly_load s.input TableId.carrier s.revision)).bind fun loaded => ?_
  refine (Looks.during _ loaded).bind fun table => ?_
  rw [h]
  exact Looks.ite (Looks.print _) (Looks.print _)

theorem looks_card (s : CardSettings) : Looks (runCard s) := by
  refine (Looks.onDisk (Store.readOnly_load s.input (Card.tableId s.revision) s.revision)).bind fun loaded => ?_
  exact (Looks.during _ loaded).bind fun table => Looks.ite (Looks.print _) (Looks.print _)

theorem looks_lcd (s : LcdSettings) : Looks (runLcd s) := by
  refine (Looks.readFile s.input).bind fun bytes => (Looks.during _ _).bind fun table => ?_
  refine Looks.ite (Looks.print _) (Looks.ite (Looks.print _) ?_)
  exact (Looks.ofResult _).bind fun name => (Looks.print _).bind fun _ => Looks.print _

theorem looks_checksum (s : ChecksumSettings) : Looks (runChecksum s) := by
  refine (Looks.readFile s.input).bind fun bytes => Looks.ite ?_ (Looks.print _)
  refine (Looks.ofResult _).bind fun stamped => (Looks.print _).bind fun _ => ?_
  exact (Looks.ofResult _).bind fun _ => Looks.print _

theorem looks_callType (byte : UInt8) : Looks (runCallType byte) := (Looks.ofResult _).bind fun _ => Looks.print _

theorem looks_dump (input : String) : Looks (runDump input) := (Looks.readFile input).bind fun _ => Looks.print _

theorem looks_execute {c : Command} (h : c.outputs = []) : Looks c.execute := by
  cases c with
  | tables => exact looks_tables
  | carrier s => exact looks_carrier (Option.toList_eq_nil_iff.1 h)
  | card s => exact looks_card s
  | convertCard s => cases h
  | lcd s => exact looks_lcd s
  | checksum s => exact looks_checksum s
  | callType byte => exact looks_callType byte
  | dump input => exact looks_dump input

/-! Runs. -/

theorem Command.run_of_ok {c : Command} {files : FileSystem} {s : Session}
    (h : c.execute.run.run { files } = (.ok (), s)) : c.run files = (⟨0, s.output, ""⟩, s.files) := by
  rw [Command.run, h]

theorem Command.run_of_error {c : Command} {files : FileSystem} {s : Session} {f : Failure}
    (h : c.execute.run.run { files } = (.error f, s)) : c.run files = (⟨1, s.output, f.report⟩, s.files) := by
  rw [Command.run, h]

/-- A command that only looks leaves the files it was run on. -/
theorem Command.files_of_looks {c : Command} (h : Looks c.execute) (files : FileSystem) : (c.run files).2 = files := by
  have left := h { files }
  rcases hrun : c.execute.run.run { files } with ⟨answer, s⟩
  rw [hrun] at left
  cases answer with
  | ok _ => rw [Command.run_of_ok hrun, left]
  | error f => rw [Command.run_of_error hrun, left]

end Payphone.CommandLine
