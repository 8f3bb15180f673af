import Payphone.Card.Table

/-!
The report on a card table: three lines of heading, then three lines for each entry in use, or four under MTR 2.x.
-/
namespace Payphone.Card

/-- A byte with the mark of hexadecimal that reports use. -/
def marked (x : UInt8) : String := "x" ++ Text.hexByte x

namespace ServiceCode

def describe : ServiceCode → String
  | credit s =>
    let codes := ",".intercalate (s.codes.toList.map Text.hexWord)
    s!"Service Codes: {codes} Spill: {Hex.encode s.spill.toList} TC:{Text.hexByte s.terminator} DI:{Text.hexByte s.discountIndex}"
  | smart s =>
    s!"Ck Digits: {Hex.encode s.checkDigits.toList} Ck Value: {Hex.encode s.checkValue.toList} Manufacturer: {Hex.encode s.manufacturer.toList} Discount Index: {Text.hexByte s.discountIndex}"
  | raw bytes => s!"Service Codes: {Hex.encode bytes.toList}"

end ServiceCode

namespace Table

def rule : String := "+------+-----------------+--------+-----+---------+-----+---------------+"

def heading : String := "| Idx  | PAN St - End    | STD CD | Vfy | Carrier | Ref | P exp ini dis |"

/-- What all revisions show of an entry. -/
def entryLine (index : Nat) (e : Entry) : String :=
  " | ".intercalate
    ["|  " ++ Text.rightAligned 2 index ++ " ",
     e.panRange,
     e.standard.label,
     marked e.verify,
     "  0x" ++ Text.hexByte e.carrierRef ++ " ",
     marked e.refNum,
     s!"P {marked e.expiryDate} {marked e.initialDate} {marked e.discretionary}",
     BitLabels.joined e.verifyLabels]

def extensionLine (e : Entry) : String :=
  s!"|      | Control: {marked e.controlInfo} Bank: {marked e.bankInfo} Lang: {marked e.langCode}"

def entryLines (revision : Revision) (index : Nat) (e : Entry) : List String :=
  [entryLine index e, "|      | " ++ e.serviceCode.describe] ++
    (if revision = .mtr2 then [extensionLine e] else []) ++ [rule]

def reportLines (t : Table) : List String :=
  [rule, heading, rule] ++ t.active.flatMap fun p => entryLines t.revision p.1 p.2

def report (t : Table) : String := String.join (t.reportLines.map (· ++ "\n"))

end Table

end Payphone.Card
