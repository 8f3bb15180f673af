import Payphone.Attempt
import Payphone.FileSystem

/-!
Attempts that read and write files. A failure ends the computation; the files stay as they were when it failed. Nothing
else changes files meanwhile: each step begins with the state that the one before left.
-/
namespace Payphone

def Disk (α : Type) : Type := FileSystem → Attempt α × FileSystem

namespace Disk

variable {α β : Type}

protected def pure (a : α) : Disk α := fun fs => (Attempt.pure a, fs)

protected def bind (x : Disk α) (f : α → Disk β) : Disk β := fun fs =>
  let (first, fs') := x fs
  match first.result with
  | .ok a =>
    let (second, fs'') := f a fs'
    (⟨second.result, first.log ++ second.log⟩, fs'')
  | .error e => (⟨.error e, first.log⟩, fs')

instance : Monad Disk where
  pure := Disk.pure
  bind := Disk.bind

/-- An attempt that leaves the files alone. -/
def ofAttempt (x : Attempt α) : Disk α := fun fs => (x, fs)

instance : MonadLift Attempt Disk where
  monadLift := ofAttempt

instance : MonadLift (Except TableError) Disk where
  monadLift x := ofAttempt (Attempt.ofExcept x)

def fail (e : TableError) : Disk α := ofAttempt (throw e)

def note (level : Log.Level) (message : String) : Disk Unit := ofAttempt (Attempt.note level message)

/-- The failure of a file as the failure of a table. -/
def ofFileError (e : FileError) : TableError := .io e.message

/-- Looks at the files without changing them. -/
def examine (look : FileSystem → Except FileError α) : Disk α := fun fs =>
  match look fs with
  | .ok a => (pure a, fs)
  | .error e => (throw (ofFileError e), fs)

/-- The bytes of a file. -/
def read (path : String) : Disk Bytes := examine fun fs => fs.read path

/-- The length that a file or folder reports. -/
def length (path : String) : Disk Nat := examine fun fs => fs.length path

/-- Replaces a file or adds it. -/
def write (path : String) (bytes : Bytes) : Disk Unit := fun fs =>
  match fs.write path bytes with
  | .ok fs' => (pure (), fs')
  | .error e => (throw (ofFileError e), fs)

end Disk

end Payphone
