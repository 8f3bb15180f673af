import Payphone.Card.Entry
import Payphone.Layout
import Payphone.Revision

/-!
The layouts of card tables: twenty entries of thirty-three bytes under MTR 1.x, thirty-two entries of thirty-six
bytes under MTR 2.x. The fields of an entry follow one another without gaps, and the first ten are the same in
both.
-/
namespace Payphone.Card

/-- Fields one behind the other from `offset` on, given by name and length, filled with zeros. -/
def contiguous (offset : Nat) : List (String × Nat) → List Field
  | [] => []
  | (name, length) :: rest => ⟨name, offset, length, 0⟩ :: contiguous (offset + length) rest

def basicFields : List (String × Nat) :=
  [("pan_start", panLength), ("pan_end", panLength), ("standard_cd", 1), ("vfy_flags", 1), ("p_exp_date", 1),
   ("p_init_date", 1), ("p_disc_data", 1), ("svc_code", serviceLength), ("ref_num", 1), ("carrier_ref", 1)]

def extensionFields : List (String × Nat) := [("control_info", 1), ("bank_info", 1), ("lang_code", 1)]

/-- The number of entries of a table. -/
def entryCount : Revision → Nat
  | .mtr1 => 20
  | .mtr2 => 32

def tableId : Revision → UInt8
  | .mtr1 => TableId.card
  | .mtr2 => TableId.cardExpanded

def layout (revision : Revision) : Layout where
  tableId := tableId revision
  revision := revision
  entryCount := entryCount revision
  fields := contiguous 0 <| match revision with
    | .mtr1 => basicFields
    | .mtr2 => basicFields ++ extensionFields

example (revision : Revision) : (layout revision).entryLength = Entry.length revision := by cases revision <;> rfl

example : (layout .mtr1).tableLength = 660 ∧ (layout .mtr2).tableLength = 1152 := by decide

end Payphone.Card
