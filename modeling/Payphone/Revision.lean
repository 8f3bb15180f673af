/-!
The firmware revisions of a terminal, and the identifiers that tables have on the wire.
-/
namespace Payphone

/-- The revisions that tables are laid out for. -/
inductive Revision
  | mtr1
  | mtr2
deriving Repr, DecidableEq, Inhabited

namespace Revision

/-- As it is written in reports and messages. -/
def label : Revision → String
  | mtr1 => "MTR 1.x"
  | mtr2 => "MTR 2.x"

/-- As it is written in structured output. -/
def name : Revision → String
  | mtr1 => "Mtr1"
  | mtr2 => "Mtr2"

end Revision

namespace TableId

/-- The card table of MTR 1.x. -/
def card : UInt8 := 0x16

/-- The installation parameters. -/
def install : UInt8 := 0x1f

/-- The expanded carrier table. -/
def carrier : UInt8 := 0x85

/-- The expanded card table of MTR 2.x. -/
def cardExpanded : UInt8 := 0x86

/-- The three tables of local call determination. -/
def lcd1 : UInt8 := 0x88

def lcd2 : UInt8 := 0x89

def lcd3 : UInt8 := 0x8a

end TableId

end Payphone
