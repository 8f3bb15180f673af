import Payphone.Disk
import Payphone.Proofs.FileSystem

/-!
Computations on files, by what they answer and by the files they leave.

1. A computation answers something (`result`) and leaves files behind (`files`); the next one starts from these.
2. A computation that only looks leaves every state as it was (`ReadOnly`), which holds of each look and from there
   of looks one after the other. What follows a look goes on from the same files (`ReadOnly.result_bind`).
3. A write leaves what the files become by it, or fails and changes nothing (`write_of_ok`, `write_of_error`).
-/
namespace Payphone

namespace Disk

variable {α β : Type} {fs : FileSystem}

/-- What the computation answers. -/
def result (x : Disk α) (fs : FileSystem) : Except TableError α := (x fs).1.result

/-- The files that the computation leaves. -/
def files (x : Disk α) (fs : FileSystem) : FileSystem := (x fs).2

@[simp] theorem result_note (level : Log.Level) (message : String) : (note level message).result fs = .ok () := rfl

@[simp] theorem result_liftExcept (x : Except TableError α) : (liftM x : Disk α).result fs = x := rfl

@[simp] theorem result_liftAttempt (x : Attempt α) : (liftM x : Disk α).result fs = x.result := rfl

theorem result_examine (look : FileSystem → Except FileError α) :
    (examine look).result fs = (look fs).mapError ofFileError := by
  unfold result examine
  cases look fs <;> simp

theorem result_read (path : String) : (read path).result fs = (fs.read path).mapError ofFileError :=
  result_examine fun fs => fs.read path

theorem result_length (path : String) : (length path).result fs = (fs.length path).mapError ofFileError :=
  result_examine fun fs => fs.length path

theorem write_of_ok {path : String} {bytes : Bytes} {fs' : FileSystem} (h : fs.write path bytes = .ok fs') :
    (write path bytes).result fs = .ok () ∧ (write path bytes).files fs = fs' := by
  unfold result files write
  rw [h]
  exact ⟨rfl, rfl⟩

theorem write_of_error {path : String} {bytes : Bytes} {e : FileError} (h : fs.write path bytes = .error e) :
    (write path bytes).result fs = .error (ofFileError e) ∧ (write path bytes).files fs = fs := by
  unfold result files write
  rw [h]
  exact ⟨rfl, rfl⟩

/-! One computation after the other. -/

theorem result_bind (x : Disk α) (f : α → Disk β) :
    (x >>= f).result fs = (x.result fs).bind fun a => (f a).result (x.files fs) := by
  change (Disk.bind x f fs).1.result = (x fs).1.result.bind _
  cases h : (x fs).1.result <;> simp [Disk.bind, h, Except.bind, result, files]

theorem files_bind_of_ok {x : Disk α} {a : α} (h : x.result fs = .ok a) (f : α → Disk β) :
    (x >>= f).files fs = (f a).files (x.files fs) := by
  change (Disk.bind x f fs).2 = _
  simp [Disk.bind, show (x fs).1.result = .ok a by exact h, files]

theorem files_bind_of_error {x : Disk α} {e : TableError} (h : x.result fs = .error e) (f : α → Disk β) :
    (x >>= f).files fs = x.files fs := by
  change (Disk.bind x f fs).2 = _
  simp [Disk.bind, show (x fs).1.result = .error e by exact h, files]

/-! Computations that only look. -/

/-- The computation changes no file. -/
def ReadOnly (x : Disk α) : Prop := ∀ fs, x.files fs = fs

namespace ReadOnly

theorem pure (a : α) : ReadOnly (Pure.pure a : Disk α) := fun _ => rfl

theorem fail (e : TableError) : ReadOnly (Disk.fail e : Disk α) := fun _ => rfl

theorem note (level : Log.Level) (message : String) : ReadOnly (Disk.note level message) := fun _ => rfl

theorem liftExcept (x : Except TableError α) : ReadOnly (liftM x : Disk α) := fun _ => rfl

theorem liftAttempt (x : Attempt α) : ReadOnly (liftM x : Disk α) := fun _ => rfl

theorem examine (look : FileSystem → Except FileError α) : ReadOnly (Disk.examine look) := by
  intro fs
  unfold files Disk.examine
  cases look fs <;> simp

theorem read (path : String) : ReadOnly (Disk.read path) := examine fun fs => fs.read path

theorem length (path : String) : ReadOnly (Disk.length path) := examine fun fs => fs.length path

theorem bind {x : Disk α} {f : α → Disk β} (hx : ReadOnly x) (hf : ∀ a, ReadOnly (f a)) : ReadOnly (x >>= f) := by
  intro fs
  cases h : x.result fs with
  | ok a => rw [files_bind_of_ok h, hf, hx]
  | error e => rw [files_bind_of_error h, hx]

theorem ite {c : Prop} [Decidable c] {x y : Disk α} (hx : ReadOnly x) (hy : ReadOnly y) :
    ReadOnly (if c then x else y) := by
  by_cases h : c
  · rw [if_pos h]
    exact hx
  · rw [if_neg h]
    exact hy

/-- What follows a look goes on from the same files. -/
theorem result_bind {x : Disk α} (hx : ReadOnly x) (f : α → Disk β) (fs : FileSystem) :
    (x >>= f).result fs = (x.result fs).bind fun a => (f a).result fs := by
  rw [Disk.result_bind, hx]

end ReadOnly

end Disk

end Payphone
