import Payphone.Card.Standard
import Payphone.FixedWidth

/-!
The service code of a card: twenty bytes whose meaning depends on the standard that the card follows.

Each view is a one-to-one reading of the twenty bytes, so none of them hides anything.
-/
namespace Payphone.Card

/-- The number of bytes of a service code. -/
def serviceLength : Nat := 20

/-- The number of service codes on a credit card. -/
def codeCount : Nat := 5

def spillLength : Nat := 8

def checkDigitLength : Nat := 6

def checkValueLength : Nat := 8

def manufacturerLength : Nat := 5

structure CreditService where
  codes : Vector UInt16 codeCount
  spill : Vector UInt8 spillLength
  terminator : UInt8
  discountIndex : UInt8
deriving Repr, DecidableEq

structure SmartService where
  checkDigits : Vector UInt8 checkDigitLength
  checkValue : Vector UInt8 checkValueLength
  manufacturer : Vector UInt8 manufacturerLength
  discountIndex : UInt8
deriving Repr, DecidableEq

def CreditService.form : FixedWidth CreditService :=
  open FixedWidth in
  ((word.vector codeCount).pair ((bytes spillLength).pair (byte.pair byte))).map
    (fun (codes, spill, terminator, discountIndex) => ⟨codes, spill, terminator, discountIndex⟩)
    (fun s => (s.codes, s.spill, s.terminator, s.discountIndex)) (fun _ => rfl) (fun _ => rfl)

def SmartService.form : FixedWidth SmartService :=
  open FixedWidth in
  ((bytes checkDigitLength).pair ((bytes checkValueLength).pair ((bytes manufacturerLength).pair byte))).map
    (fun (checkDigits, checkValue, manufacturer, discountIndex) =>
      ⟨checkDigits, checkValue, manufacturer, discountIndex⟩)
    (fun s => (s.checkDigits, s.checkValue, s.manufacturer, s.discountIndex)) (fun _ => rfl) (fun _ => rfl)

example : CreditService.form.width = serviceLength := rfl

example : SmartService.form.width = serviceLength := rfl

inductive ServiceCode
  | credit (service : CreditService)
  | smart (service : SmartService)
  | raw (bytes : Vector UInt8 serviceLength)
deriving Repr, DecidableEq

namespace ServiceCode

/-- The view of the bytes under a standard. -/
def ofBytes (standard : Standard) (bytes : Vector UInt8 serviceLength) : ServiceCode :=
  match standard with
  | .ansi | .aba | .cba | .boc | .ansi59 | .ccitt => credit (CreditService.form.decode bytes.toList)
  | .smartCard => smart (SmartService.form.decode bytes.toList)
  | _ => raw bytes

end ServiceCode

end Payphone.Card
