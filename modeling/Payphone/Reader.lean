import Payphone.Error
import Payphone.FixedWidth

/-!
Reading from the front of a byte string.

A reader takes the bytes of one value and hands on the rest, or gives up where too few are left; no reader looks
behind the end of its input.
-/
namespace Payphone

abbrev Reader : Type → Type := StateT Bytes (Except ReadFailure)

namespace Reader

variable {α : Type}

/-- A value of a fixed width. -/
def value (f : FixedWidth α) : Reader α := fun input =>
  if f.width ≤ input.length then .ok (f.decode (input.take f.width), input.drop f.width)
  else .error (.ranOut input)

def byte : Reader UInt8 := value .byte

def word : Reader UInt16 := value .word

def long : Reader UInt32 := value .long

def bytes (n : Nat) : Reader (Vector UInt8 n) := value (.bytes n)

/-- As many values, one behind the other. -/
def count (reader : Reader α) : Nat → Reader (List α)
  | 0 => return []
  | n + 1 => return (← reader) :: (← count reader n)

end Reader

end Payphone
