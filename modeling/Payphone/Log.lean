/-!
Log records and their severity.
-/
namespace Payphone.Log

inductive Level
  | error
  | warn
  | info
  | debug
  | trace
deriving Repr, DecidableEq

namespace Level

/-- The position from the most severe level on. -/
def rank : Level → Nat
  | error => 1
  | warn => 2
  | info => 3
  | debug => 4
  | trace => 5

def label : Level → String
  | error => "ERROR"
  | warn => "WARN"
  | info => "INFO"
  | debug => "DEBUG"
  | trace => "TRACE"

end Level

structure Record where
  level : Level
  message : String
deriving Repr, DecidableEq

/-- The records at least as severe as `limit`; without a limit, none. -/
def visible (limit : Option Level) (records : List Record) : List Record :=
  records.filter fun r => match limit with
    | some l => r.level.rank ≤ l.rank
    | none => false

end Payphone.Log
