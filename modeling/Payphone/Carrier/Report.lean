import Payphone.Carrier.Table

/-!
The report on a carrier table: the default selectors, one line for each configured carrier, and the spare bytes.
-/
namespace Payphone.Carrier

/-- The names of the default selectors, in order. -/
def defaultLabels : List String :=
  ["PIC Inter-LATA carrier", "Coin Inter-LATA carrier", "Creditcard Inter-LATA carrier", "PIC Intra-LATA carrier",
   "Coin Intra-LATA carrier", "Creditcard Intra-LATA carrier", "PIC Local carrier", "Coin Local carrier",
   "Creditcard Local carrier"]

namespace Table

def defaultLine (index : Nat) (label : String) (value : UInt8) : String :=
  s!"\t{Text.decimal index} {Text.padRight 29 label} = 0x{Text.hexByte value} ({Text.rightAligned 3 value.toNat})"

def rule : String :=
  "+----+------+--------+-------------+----------------------+------+------+---------+-------+------------+--------------+"

def heading : String :=
  "|  # | Ref  | Number | Valid Cards | Display Prompt       |  CB2 |  CB  | FGB Tmr | Int'l | Call Entry | CB2/CB Flags |"

def entryLine (index : Nat) (e : Entry) : String :=
  " | ".intercalate
    ["| " ++ Text.rightAligned 2 index,
     "0x" ++ Text.hexByte e.carrierRef,
     "0x" ++ Text.hexWord e.number,
     " 0x" ++ Text.hexLong e.validCards,
     e.promptText,
     "0x" ++ Text.hexByte e.control2,
     "0x" ++ Text.hexByte e.control,
     " " ++ Text.rightAligned 5 e.fgbTimer.toNat ++ " ",
     " 0x" ++ Text.hexByte e.internationalAccept,
     "0x" ++ Text.hexByte e.callEntry ++ "   " ++ Text.rightAligned 3 e.callEntry.toNat,
     BitLabels.joined e.flagLabels]

def reportLines (t : Table) : List String :=
  "Default Carriers:" ::
    (defaultLabels.zip t.defaults.toList).mapIdx (fun i p => defaultLine i p.1 p.2) ++
    [rule, heading, rule] ++ t.active.map (fun p => entryLine p.1 p.2) ++
    [rule, "Spare:" ++ String.join (t.spare.toList.map fun x => " 0x" ++ Text.hexByte x)]

def report (t : Table) : String := String.join (t.reportLines.map (· ++ "\n"))

end Table

end Payphone.Carrier
