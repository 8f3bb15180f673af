import Payphone.Lcd.Table
import Payphone.Text

/-!
The report on a table of local call determination: a grid of eighty rows of ten exchanges, in four blocks of twenty
rows under a heading each, written in one walk over the exchanges.
-/
namespace Payphone.Lcd

/-- What a rate class means. -/
def rateLabel (rate : UInt8) : String :=
  match rate.toNat with
  | 0 => "Local"
  | 1 => "Unknown"
  | 2 => "Intra-LATA toll"
  | 3 => "Invalid"
  | 4 => "Inter-LATA toll"
  | _ => "Reserved"

/-- The rate classes in three characters. -/
def rateSymbols : List String :=
  [" L ", " ? ", "$LD", " - ", "$$$", "  5", "  6", "  7", "  8", "  9", " 10", " 11", " 12", " 13", " 14", " 15"]

/-- The symbol of a class, or its number if it has none. -/
def rateSymbol (rate : UInt8) : String := rateSymbols.getD rate.toNat (Text.rightAligned 3 rate.toNat)

namespace Table

def cell (rate : UInt8) : String := " " ++ rateSymbol rate ++ " |"

/-- The start of the row of the ten exchanges that begin with the two digits of `tens`. -/
def rowStart (npa tens : Nat) : String := s!"| {Text.zeroPadded 3 npa}-{Text.zeroPadded 2 tens}x |"

/-- The line above a block and below the grid. -/
def edge : String := "+---------------------------------------------------------------------+"

def blockHeading : List String :=
  [edge, "| NPA-NXX |  0  |  1  |  2  |  3  |  4  |  5  |  6  |  7  |  8  |  9  |",
   "+---------+-----+-----+-----+-----+-----+-----+-----+-----+-----+-----+"]

/-- What stands in front of the cell of an exchange: a heading every two hundred exchanges, on a new line except for
the first one, and the start of a row every ten. -/
def lead (npa nxx : Nat) : String :=
  (if nxx % 200 = 0 then (if nxx = firstExchange then "" else "\n") ++ "\n".intercalate blockHeading else "") ++
    if nxx % 10 = 0 then "\n" ++ rowStart npa (nxx / 10) else ""

/-- The report, exchange by exchange. -/
def report (t : Table) : String :=
  String.join (t.classes.toList.mapIdx fun i rate => lead t.npa (firstExchange + i) ++ cell rate) ++ "\n" ++ edge ++
    "\n"

/-- What the table is, in one line. -/
def title (t : Table) (name : String) : String := s!"{name} ({t.packing.name}), NPA {Text.decimal t.npa}"

end Table

end Payphone.Lcd
