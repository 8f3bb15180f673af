import Payphone.Card.Table
import Payphone.Carrier.Table
import Payphone.Json
import Payphone.Lcd.Table
import Payphone.TableType

/-!
Tables as structured output, every field under its own name and bytes as numbers.
-/
namespace Payphone.Export

open Json

def carrierEntry (e : Carrier.Entry) : Json :=
  object
    [("carrier_ref", ofByte e.carrierRef), ("carrier_num", number e.number.toNat),
     ("valid_cards", number e.validCards.toNat), ("display_prompt", ofBytes e.prompt.toList),
     ("control_byte2", ofByte e.control2), ("control_byte", ofByte e.control),
     ("fgb_timer", number e.fgbTimer.toNat), ("international_accept_flags", ofByte e.internationalAccept),
     ("call_entry", ofByte e.callEntry)]

def carrierTable (t : Carrier.Table) : Json :=
  object
    [("defaults", ofBytes t.defaults.toList), ("carriers", array (t.carriers.map carrierEntry)),
     ("spare", ofBytes t.spare.toList)]

def cardEntry (e : Card.Entry) : Json :=
  object
    [("pan_start", ofBytes e.panStart.toList), ("pan_end", ofBytes e.panEnd.toList),
     ("standard_cd", ofByte e.standardCode), ("vfy_flags", ofByte e.verify), ("p_exp_date", ofByte e.expiryDate),
     ("p_init_date", ofByte e.initialDate), ("p_disc_data", ofByte e.discretionary),
     ("svc_code", ofBytes e.service.toList), ("ref_num", ofByte e.refNum), ("carrier_ref", ofByte e.carrierRef),
     ("control_info", ofByte e.controlInfo), ("bank_info", ofByte e.bankInfo), ("lang_code", ofByte e.langCode)]

def cardTable (t : Card.Table) : Json :=
  object [("revision", text t.revision.name), ("entries", array (t.entries.map cardEntry))]

/-- A service code under the name of its kind. -/
def serviceCode : Card.ServiceCode → Json
  | .credit s =>
    object [("CreditCard", object
      [("svc_code", array (s.codes.toList.map fun w => number w.toNat)), ("spill_string", ofBytes s.spill.toList),
       ("term_char", ofByte s.terminator), ("discount_index", ofByte s.discountIndex)])]
  | .smart s =>
    object [("SmartCard", object
      [("check_digits", ofBytes s.checkDigits.toList), ("check_value", ofBytes s.checkValue.toList),
       ("manufacturer", ofBytes s.manufacturer.toList), ("discount_index", ofByte s.discountIndex)])]
  | .raw bytes => object [("Raw", ofBytes bytes.toList)]

def lcdTable (t : Lcd.Table) : Json :=
  object
    [("table_id", ofByte t.tableId), ("npa", number t.npa), ("encoding", text t.packing.name),
     ("classes", ofBytes t.classes.toList)]

def installParameters (p : Install.Parameters) : Json := object [("raw", ofBytes p.raw.toList)]

end Payphone.Export
