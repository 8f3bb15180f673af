import Payphone.Error

/-!
Bytes shown as labels.

The bits of a byte choose items of a list: item `i` is chosen when bit `i` is set. Items past the eighth have no bit,
and a bit without an item is passed over. The call type byte holds the kind of call in its low half and the kind of
payment in its high half.
-/
namespace Payphone

namespace BitLabels

/-- The items whose bit is set, bit 0 first. -/
def chosen {α : Type} (bits : UInt8) (items : List α) : List α :=
  ((items.take 8).zipIdx.filter fun p => bits.toNat.testBit p.2).map Prod.fst

/-- Labels as reports show them. -/
def joined (labels : List String) : String := " | ".intercalate labels

example : chosen 0x85 ["A", "B", "C"] = ["A", "C"] := by decide

end BitLabels

namespace CallType

def callLabels : List String :=
  ["Incoming", "Unanswered", "Abandoned", "Local", "Intra-LATA", "Inter-LATA", "International", "Operator",
   "Zero+", "1-800", "Directory Assistance", "Denied", "Unassigned", "Unassigned2", "e-Purse", "Unknown"]

def paymentLabels : List String :=
  ["Unused0", "Unused1", "No Charge", "Coin", "Credit Card", "Calling Card", "Cash Card", "Inmate", "Mondex",
   "Visa Stored Value", "Smart City", "Proton", "UndefinedC", "UndefinedD", "UndefinedE", "UndefinedF"]

/-- The call, a blank and the payment. -/
def text (callType : UInt8) : String :=
  callLabels.getD (callType.toNat % 16) "" ++ " " ++ paymentLabels.getD (callType.toNat / 16) ""

/-- The text, if it has no more than `capacity` characters. -/
def render (callType : UInt8) (capacity : Nat) : Except TableError String :=
  let text := text callType
  if text.length > capacity then .error (.bufferTooSmall text.length capacity) else .ok text

end CallType

end Payphone
