import Payphone.Labels
import Payphone.Reader
import Payphone.Text

/-!
One carrier: how calls are routed to it and what the terminal shows meanwhile.
-/
namespace Payphone.Carrier

/-! The flags of the two control bytes, bit 0 first. -/

inductive ControlFlag
  | card101xxxx
  | specialPrompt
  | coinCashCards
  | alternateBongTimeout
  | delayAfterBong
  | intraLataToLec
  | outdialString
  | featureGroupB
deriving Repr, DecidableEq

namespace ControlFlag

def all : List ControlFlag :=
  [card101xxxx, specialPrompt, coinCashCards, alternateBongTimeout, delayAfterBong, intraLataToLec, outdialString,
   featureGroupB]

def name : ControlFlag → String
  | card101xxxx => "CARD_101XXXX"
  | specialPrompt => "USE_SPEC_DISPLAY_PROMPT"
  | coinCashCards => "ACCEPTS_COIN_CASH_CARDS"
  | alternateBongTimeout => "ALT_BONG_TIMEOUT"
  | delayAfterBong => "DELAY_AFTER_BONG"
  | intraLataToLec => "INTRALATA_TO_LEC"
  | outdialString => "OUTDIAL_STRING"
  | featureGroupB => "FEATURE_GROUP_B"

/-- The short form for reports. -/
def label : ControlFlag → String
  | card101xxxx => "CARCD101XXXX"
  | specialPrompt => "SPEC_PROMPT"
  | coinCashCards => "COIN_CASH_CD"
  | alternateBongTimeout => "ALT_BONG_TMO"
  | delayAfterBong => "DLY_AFT_BONG"
  | intraLataToLec => "INTRA_TO_LEC"
  | outdialString => "OUTDIAL_STR"
  | featureGroupB => "FEAT_GROUP_B"

end ControlFlag

/-- The call categories for which the carrier's own prefix is removed, between two other flags. -/
inductive PrefixFlag
  | featureGroupBPrompt
  | removeLocal
  | removeIntraLata
  | removeInterLata
  | removeInternational
  | removeDirectoryAssistance
  | remove1800
  | spare
deriving Repr, DecidableEq

namespace PrefixFlag

def all : List PrefixFlag :=
  [featureGroupBPrompt, removeLocal, removeIntraLata, removeInterLata, removeInternational,
   removeDirectoryAssistance, remove1800, spare]

def name : PrefixFlag → String
  | featureGroupBPrompt => "FGB_PROMPT"
  | removeLocal => "REM_CARRIER_PREFIX_LOCAL"
  | removeIntraLata => "REM_CARRIER_PREFIX_INTRALATA"
  | removeInterLata => "REM_CARRIER_PREFIX_INTERLATA"
  | removeInternational => "REM_CARRIER_PREFIX_INTL"
  | removeDirectoryAssistance => "REM_CARRIER_PREFIX_DA"
  | remove1800 => "REM_CARRIER_PREFIX_1800"
  | spare => "SPARE"

/-- The short form for reports. -/
def label : PrefixFlag → String
  | featureGroupBPrompt => "FGB_PROMPT"
  | removeLocal => "RM_PFX_LCL"
  | removeIntraLata => "RM_PFX_INTRA"
  | removeInterLata => "RM_PFX_INTER"
  | removeInternational => "RM_PFX_INT'L"
  | removeDirectoryAssistance => "RM_PFX_DA"
  | remove1800 => "RM_PFX_1800"
  | spare => "CB2_SPARE"

/-- The bits of all six call categories. -/
def removeAllBits : UInt8 := 0x7e

end PrefixFlag

/-! Entries. -/

/-- The width of the prompt on the terminal. -/
def promptLength : Nat := 20

structure Entry where
  carrierRef : UInt8 := 0
  number : UInt16 := 0
  /-- One bit for each entry of the card table. -/
  validCards : UInt32 := 0
  prompt : Vector UInt8 promptLength := Vector.replicate promptLength 0
  /-- The bits of the `PrefixFlag`s. -/
  control2 : UInt8 := 0
  /-- The bits of the `ControlFlag`s. -/
  control : UInt8 := 0
  fgbTimer : UInt16 := 0
  internationalAccept : UInt8 := 0
  callEntry : UInt8 := 0
deriving Repr, DecidableEq, Inhabited

namespace Entry

/-- The bytes of an entry, field by field. -/
def form : FixedWidth Entry :=
  open FixedWidth in
  (byte.pair (word.pair (long.pair ((bytes promptLength).pair
    (byte.pair (byte.pair (word.pair (byte.pair byte)))))))).map
    (fun (carrierRef, number, validCards, prompt, control2, control, fgbTimer, internationalAccept, callEntry) =>
      ⟨carrierRef, number, validCards, prompt, control2, control, fgbTimer, internationalAccept, callEntry⟩)
    (fun e => (e.carrierRef, e.number, e.validCards, e.prompt, e.control2, e.control, e.fgbTimer,
      e.internationalAccept, e.callEntry))
    (fun _ => rfl) (fun _ => rfl)

/-- Reads an entry field by field. -/
def read : Reader Entry := do
  let carrierRef ← Reader.byte
  let number ← Reader.word
  let validCards ← Reader.long
  let prompt ← Reader.bytes promptLength
  let control2 ← Reader.byte
  let control ← Reader.byte
  let fgbTimer ← Reader.word
  let internationalAccept ← Reader.byte
  let callEntry ← Reader.byte
  return ⟨carrierRef, number, validCards, prompt, control2, control, fgbTimer, internationalAccept, callEntry⟩

/-- The number of bytes of an entry. -/
def length : Nat := form.width

example : length = 33 := rfl

/-- The UTF-8 bytes of `text`, cut to the width of the prompt or filled up with blanks. -/
def withPrompt (e : Entry) (text : String) : Entry :=
  let bytes := Text.utf8 text
  { e with prompt := Vector.ofFn fun i => bytes.getD i 0x20 }

/-- An entry as the standard carriers have it: a prompt of its own, coin and cash cards accepted, and the prefix
removed for every category of call. -/
def standard (carrierRef : UInt8) (prompt : String) : Entry :=
  withPrompt
    { carrierRef, validCards := 0x3fff, control2 := PrefixFlag.removeAllBits, control := 0x06, fgbTimer := 500 }
    prompt

example : BitLabels.chosen (standard 0 "").control ControlFlag.all = [.specialPrompt, .coinCashCards] := by decide

/-- The prompt starts with a character that can be shown. -/
def hasPrompt (e : Entry) : Bool := e.prompt[0] ≥ 0x20

/-- A slot that was never configured, which reports pass over. -/
def isUnused (e : Entry) : Bool := !e.hasPrompt && e.carrierRef == 0 && e.callEntry == 0

/-- The prompt as the terminal shows it, blank if it cannot be shown. -/
def promptText (e : Entry) : String :=
  if e.hasPrompt then Text.latin1 e.prompt.toList else Text.blanks promptLength

def controlFlags (e : Entry) : List ControlFlag := BitLabels.chosen e.control ControlFlag.all

def prefixFlags (e : Entry) : List PrefixFlag := BitLabels.chosen e.control2 PrefixFlag.all

/-- The set flags of the second control byte, then those of the first. -/
def flagLabels (e : Entry) : List String :=
  e.prefixFlags.map PrefixFlag.label ++ e.controlFlags.map ControlFlag.label

/-- Whether the prefix is removed for every category of call. -/
def removesAllPrefixes (e : Entry) : Bool := e.control2 &&& PrefixFlag.removeAllBits == PrefixFlag.removeAllBits

end Entry

end Payphone.Carrier
