/-!
Numbers on the command line: decimal, or hexadecimal after `0x` or `0X`; one plus sign may stand before the digits,
and leading zeros do not count. Numbers of more than sixteen bits are refused.
-/
namespace Payphone.CommandLine

/-- The value of a digit to base ten or sixteen; letters of either case. -/
def digitValue? (base : Nat) (c : Char) : Option Nat :=
  let value :=
    if '0' ≤ c ∧ c ≤ '9' then some (c.toNat - 48)
    else if 'a' ≤ c ∧ c ≤ 'f' then some (c.toNat - 87)
    else if 'A' ≤ c ∧ c ≤ 'F' then some (c.toNat - 55)
    else none
  value.filter (· < base)

/-- The number that digits stand for, the highest first, behind those that `n` stands for. -/
def digitsFrom? (base n : Nat) : List Char → Option Nat
  | [] => some n
  | c :: rest =>
    match digitValue? base c with
    | some d => digitsFrom? base (n * base + d) rest
    | none => none

/-- At least one digit, all of them digits. -/
def digits? (base : Nat) (cs : List Char) : Option Nat := if cs.isEmpty then none else digitsFrom? base 0 cs

/-- Digits behind at most one plus sign. -/
def unsigned? (base : Nat) : List Char → Option Nat
  | '+' :: cs => digits? base cs
  | cs => digits? base cs

def number? (text : String) : Option Nat :=
  match text.toList with
  | '0' :: 'x' :: cs => unsigned? 16 cs
  | '0' :: 'X' :: cs => unsigned? 16 cs
  | cs => unsigned? 10 cs

def word? (text : String) : Option UInt16 :=
  match number? text with
  | some n => if n ≤ 0xffff then some (UInt16.ofNat n) else none
  | none => none

def byte? (text : String) : Option UInt8 :=
  match word? text with
  | some w => if w ≤ 0xff then some w.toUInt8 else none
  | none => none

example : word? "0x+89" = some 0x89 ∧ word? "00137" = some 137 ∧ word? "-0" = none ∧ word? "65536" = none := by decide

end Payphone.CommandLine
