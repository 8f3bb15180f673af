import Payphone.Proofs.CommandLine.Console
import Payphone.Proofs.Store.Runs

/-!
Commands that save.

1. A run that saves has one of three outcomes (`Saved`). It has nothing to save, or cannot save it, and then it fails
   and leaves all files as they were; or it succeeds, and the file is there.
2. So it succeeds exactly if it has something to save and its output can be written (`Saved.exitCode_eq_zero_iff`), and
   in any case nothing else changes (`Saved.frame`).
3. A command has one of these outcomes if it fails because its input is not read, or if it comes to write what it has
   and only prints behind that (`saves_of_unread`, `saves_of_write`).
-/
namespace Payphone.CommandLine

open Console

variable {files : FileSystem}

/-! What a run leaves alone. -/

/-- What the run of a command with these outputs leaves alone: there is at most one output, no other file changes, and
none at all changes if the run fails. -/
structure Frame (outputs : List String) (before after : FileSystem) (exitCode : Nat) : Prop where
  single : outputs.length ≤ 1
  kept (h : outputs = [] ∨ exitCode ≠ 0) : after = before
  places (l : Location) (h : ∀ path ∈ outputs, Path.placeOf? path ≠ some l) : after.node? l = before.node? l
  paths (other : String) (h : ∀ path ∈ outputs, Path.placeOf? other ≠ Path.placeOf? path) :
    (after.read other).toOption = (before.read other).toOption

theorem Frame.refl {outputs : List String} (single : outputs.length ≤ 1) (files : FileSystem) (exitCode : Nat) :
    Frame outputs files files exitCode :=
  ⟨single, fun _ => rfl, fun _ _ => rfl, fun _ _ => rfl⟩

/-! Runs that save. -/

/-- How a run ends that has `Content` to save at a path. -/
inductive Saved (Content : Bytes → Prop) (path : String) (files : FileSystem) : Nat → FileSystem → Prop
  | refused (h : ∀ bytes, ¬ Content bytes) : Saved Content path files 1 files
  | unwritable (h : ¬ files.Writable path) : Saved Content path files 1 files
  | written {bytes : Bytes} {files' : FileSystem} (h : Content bytes) (hw : files.write path bytes = .ok files')
    (stored : files'.read path = .ok bytes) : Saved Content path files 0 files'

namespace Saved

variable {Content : Bytes → Prop} {path : String} {exitCode : Nat} {after : FileSystem}

theorem exitCode_eq_zero_iff (h : Saved Content path files exitCode after) :
    exitCode = 0 ↔ (∃ bytes, Content bytes) ∧ files.Writable path := by
  cases h with
  | refused none => simp [none]
  | unwritable refused => simp [refused]
  | written has hw => exact ⟨fun _ => ⟨⟨_, has⟩, (FileSystem.writable_iff _).2 ⟨_, hw⟩⟩, fun _ => rfl⟩

theorem read (h : Saved Content path files exitCode after) (ok : exitCode = 0) :
    ∃ bytes, Content bytes ∧ after.read path = .ok bytes := by
  cases h with
  | refused => cases ok
  | unwritable => cases ok
  | written has _ stored => exact ⟨_, has, stored⟩

theorem writable_iff (h : Saved Content path files exitCode after) (other : String) :
    after.Writable other ↔ files.Writable other := by
  cases h with
  | refused => rfl
  | unwritable => rfl
  | written has hw => exact FileSystem.writable_write_iff hw

/-- Where there is something to save behind another run, only the output decides. -/
theorem exitCode_eq_zero_iff_writable (first : Saved Content path files exitCode after) {output : String}
    {saved : Bytes} {exitCode' : Nat} {after' : FileSystem} (h : Saved (· = saved) output after exitCode' after') :
    exitCode' = 0 ↔ files.Writable output := by
  rw [h.exitCode_eq_zero_iff, first.writable_iff]
  exact ⟨And.right, fun writable => ⟨⟨saved, rfl⟩, writable⟩⟩

/-- Less is said of what there is to save. -/
theorem weaken {Content' : Bytes → Prop} (h : Saved Content path files exitCode after)
    (less : ∀ bytes, Content bytes → Content' bytes) (any : ∀ bytes, Content' bytes → ∃ bytes, Content bytes) :
    Saved Content' path files exitCode after := by
  cases h with
  | refused none =>
    refine .refused fun bytes has => ?_
    obtain ⟨bytes', has'⟩ := any bytes has
    exact none bytes' has'
  | unwritable refused => exact .unwritable refused
  | written has hw stored => exact .written (less _ has) hw stored

theorem frame (h : Saved Content path files exitCode after) : Frame [path] files after exitCode := by
  have single : [path].length ≤ 1 := Nat.le_refl 1
  cases h with
  | refused => exact .refl single files 1
  | unwritable => exact .refl single files 1
  | written has hw =>
    obtain ⟨place, hplace, elsewhere, -⟩ := FileSystem.write_frame hw
    refine ⟨single, by simp, ?_, ?_⟩
    · intro l hl
      exact elsewhere l fun same => hl path (List.mem_singleton.2 rfl) (by rw [hplace, same])
    · intro other hother
      exact FileSystem.read_write_of_ne hw (hother path (List.mem_singleton.2 rfl))

end Saved

/-! Commands and what they have to save. -/

/-- The command saves at the path what is described by `Content`, if there is any. -/
def Command.Saves (c : Command) (files : FileSystem) (path : String) (Content : Bytes → Prop) : Prop :=
  Saved Content path files (c.run files).1.exitCode (c.run files).2

/-- The file has these bytes, and their number is right. -/
def Holds (files : FileSystem) (path : String) (size : Nat) (bytes : Bytes) : Prop :=
  files.read path = .ok bytes ∧ bytes.length = size

theorem readSized_eq_ok_iff {path : String} {id : UInt8} {size : Nat} {bytes : Bytes} :
    (Store.readSized path id size).result files = .ok bytes ↔ Holds files path size bytes :=
  ⟨Store.read_of_readSized, fun h => Store.readSized_of_read h.1 h.2⟩

section

variable {c : Command} {path : String}

/-- There is nothing to save where the input is not read. -/
theorem saves_of_unread {input : String} {id : UInt8} {size : Nat} {R : Bytes → Bytes → Prop} {e : TableError}
    {f : Failure} (unread : (Store.readSized input id size).result files = .error e)
    (h : c.execute.run.run { files } = (.error f, { files })) :
    c.Saves files path fun bytes => ∃ payload, Holds files input size payload ∧ R payload bytes := by
  rw [Command.Saves, Command.run_of_error h]
  refine .refused fun bytes has => ?_
  obtain ⟨payload, holds, -⟩ := has
  rw [readSized_eq_ok_iff.2 holds] at unread
  cases unread

/-- The command comes to write what it has, and only prints behind that. -/
theorem saves_of_write {Content : Bytes → Prop} {doing text : String} {bytes : Bytes}
    (h : c.execute.run.run { files } = (onDisk (Store.writePayload path bytes) >>= fun answer =>
      during doing answer >>= fun _ => print text).run.run { files })
    (has : Content bytes) : c.Saves files path Content := by
  rw [Command.Saves]
  cases hw : files.write path bytes with
  | error e =>
    obtain ⟨answer, left⟩ := Store.writePayload_of_error hw
    have unwritable : ¬ files.Writable path := by
      intro writable
      obtain ⟨files', hw'⟩ := (FileSystem.writable_iff bytes).1 writable
      rw [hw] at hw'
      cases hw'
    rw [run_onDisk_of_error answer, left] at h
    rw [Command.run_of_error h]
    exact .unwritable unwritable
  | ok files' =>
    obtain ⟨answer, left⟩ := Store.writePayload_of_ok hw
    rw [run_onDisk_of_ok answer, left, run_print] at h
    rw [Command.run_of_ok h]
    exact .written has hw (FileSystem.read_write hw)

end

/-- From a file that holds `stored` there is one thing to save. -/
theorem Saved.of_holds {input path : String} {size exitCode : Nat} {after : FileSystem} {R : Bytes → Bytes → Prop}
    (h : Saved (fun bytes => ∃ payload, Holds files input size payload ∧ R payload bytes) path files exitCode after)
    {stored target : Bytes} (holds : Holds files input size stored) (same : ∀ bytes, R stored bytes ↔ bytes = target) :
    Saved (· = target) path files exitCode after := by
  refine h.weaken ?_ ?_
  · rintro bytes ⟨payload, holds', has⟩
    obtain rfl : payload = stored := Except.ok.inj (holds'.1.symm.trans holds.1)
    exact (same bytes).1 has
  · rintro bytes rfl
    exact ⟨bytes, stored, holds, (same bytes).2 rfl⟩

end Payphone.CommandLine
