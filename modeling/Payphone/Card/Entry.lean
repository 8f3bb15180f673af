import Payphone.Card.ServiceCode
import Payphone.Hex
import Payphone.Labels
import Payphone.Layout

/-!
One card: a range of account numbers and the rules for cards within it.

Under MTR 2.x an entry has three more bytes than under MTR 1.x, at its end. In memory an entry always has them;
under MTR 1.x they are not written and read as zero. An entry is read and written by the names that a layout has
for its fields, so offsets stand in the layouts only.
-/
namespace Payphone.Card

/-! Verification flags, bit 0 first. -/

inductive VerifyFlag
  | mod10
  | hostValidation
  /-- Set when the card is not a calling card. -/
  | callingCard
  | immediateAuthorization
  | serviceCodeValidation
  | promptPin
  | promptTelcoPin
  | accsRouting
deriving Repr, DecidableEq

namespace VerifyFlag

def all : List VerifyFlag :=
  [mod10, hostValidation, callingCard, immediateAuthorization, serviceCodeValidation, promptPin, promptTelcoPin,
   accsRouting]

def name : VerifyFlag → String
  | mod10 => "MOD10_IND"
  | hostValidation => "NCCVAL_IND"
  | callingCard => "CALLING_CARD_IND"
  | immediateAuthorization => "IMMEDIATE_AUTH_IND"
  | serviceCodeValidation => "SERVICE_CD_VALIDATION_IND"
  | promptPin => "PROMPT_FOR_PIN"
  | promptTelcoPin => "PROMPT_FOR_TELCO_PIN"
  | accsRouting => "ACCS_ROUTING"

/-- Ten characters for reports. -/
def label : VerifyFlag → String
  | mod10 => "MOD10 IND "
  | hostValidation => "NCCVAL IND"
  | callingCard => "CALLING CD"
  | immediateAuthorization => "IMMED AUTH"
  | serviceCodeValidation => "SVC CD VAL"
  | promptPin => "PROMPT PIN"
  | promptTelcoPin => "TELCO PIN "
  | accsRouting => "ACCS ROUTE"

/-- The bit of `callingCard`. -/
def callingCardBit : UInt8 := 0x04

end VerifyFlag

/-! Entries. -/

/-- The number of bytes of an account number. -/
def panLength : Nat := 3

/-- What an entry has under every revision. -/
structure Basic where
  panStart : Vector UInt8 panLength := Vector.replicate panLength 0
  panEnd : Vector UInt8 panLength := Vector.replicate panLength 0
  standardCode : UInt8 := 0
  /-- The bits of the `VerifyFlag`s. -/
  verify : UInt8 := 0
  expiryDate : UInt8 := 0
  initialDate : UInt8 := 0
  discretionary : UInt8 := 0
  service : Vector UInt8 serviceLength := Vector.replicate serviceLength 0
  refNum : UInt8 := 0
  /-- The `carrierRef` of the carrier for this card. -/
  carrierRef : UInt8 := 0
deriving Repr, DecidableEq, Inhabited

/-- What an entry has under MTR 2.x besides. -/
structure Extension where
  controlInfo : UInt8 := 0
  bankInfo : UInt8 := 0
  langCode : UInt8 := 0
deriving Repr, DecidableEq, Inhabited

structure Entry extends Basic, Extension
deriving Repr, DecidableEq, Inhabited

namespace Entry

/-- The number of bytes of an entry. -/
def length : Revision → Nat
  | .mtr1 => 33
  | .mtr2 => 36

/-! The bytes of an entry, field by field as a layout names them. -/

/-- What an entry holds for a field of that name. -/
def value (e : Entry) : String → Bytes
  | "pan_start" => e.panStart.toList
  | "pan_end" => e.panEnd.toList
  | "standard_cd" => [e.standardCode]
  | "vfy_flags" => [e.verify]
  | "p_exp_date" => [e.expiryDate]
  | "p_init_date" => [e.initialDate]
  | "p_disc_data" => [e.discretionary]
  | "svc_code" => e.service.toList
  | "ref_num" => [e.refNum]
  | "carrier_ref" => [e.carrierRef]
  | "control_info" => [e.controlInfo]
  | "bank_info" => [e.bankInfo]
  | "lang_code" => [e.langCode]
  | _ => []

/-- The bytes of an entry under a layout, each field cut or filled up to its length. -/
def write (l : Layout) (e : Entry) : Bytes := l.assemble fun f => (e.value f.name).take f.length

/-- Reads the bytes of an entry under a layout; nothing if a field cannot be read. -/
def read? (l : Layout) (entry : Bytes) : Option Entry := do
  let panStart ← l.array? panLength "pan_start" entry
  let panEnd ← l.array? panLength "pan_end" entry
  let standardCode ← l.byte? "standard_cd" entry
  let verify ← l.byte? "vfy_flags" entry
  let expiryDate ← l.byte? "p_exp_date" entry
  let initialDate ← l.byte? "p_init_date" entry
  let discretionary ← l.byte? "p_disc_data" entry
  let service ← l.array? serviceLength "svc_code" entry
  let refNum ← l.byte? "ref_num" entry
  let carrierRef ← l.byte? "carrier_ref" entry
  let controlInfo ← l.byte? "control_info" entry
  let bankInfo ← l.byte? "bank_info" entry
  let langCode ← l.byte? "lang_code" entry
  return { panStart, panEnd, standardCode, verify, expiryDate, initialDate, discretionary, service, refNum,
           carrierRef, controlInfo, bankInfo, langCode }

/-! What the fields say. -/

/-- An entry without a standard is an empty slot. -/
def isUnused (e : Entry) : Bool := e.standardCode == 0

def standard (e : Entry) : Standard := Standard.ofCode e.standardCode

/-- The flags that are set. -/
def verifyFlags (e : Entry) : List VerifyFlag := BitLabels.chosen e.verify VerifyFlag.all

/-- The labels of the flags, with the calling card flag turned round so that it is listed for calling cards. -/
def verifyLabels (e : Entry) : List String :=
  (BitLabels.chosen (e.verify ^^^ VerifyFlag.callingCardBit) VerifyFlag.all).map VerifyFlag.label

/-- The service code as the standard has it; a standard code beyond the sixteen standards leaves the bytes as they
are. -/
def serviceCode (e : Entry) : ServiceCode :=
  if e.standardCode > 0x0f then .raw e.service else ServiceCode.ofBytes e.standard e.service

/-- The account numbers, in hexadecimal. -/
def panRange (e : Entry) : String := Hex.encode e.panStart.toList ++ " - " ++ Hex.encode e.panEnd.toList

end Entry

end Payphone.Card
