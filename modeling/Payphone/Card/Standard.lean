/-!
The standards that a card may follow.
-/
namespace Payphone.Card

inductive Standard
  | undefined
  | mod10
  | ansi
  | aba
  | cba
  | boc
  | ansi59
  | ccitt
  | pinOff
  | hello
  | smartCard
  | reserved
  | gpm416
  | pcos
  | mpcos
  | proton
deriving Repr, DecidableEq

namespace Standard

/-- The standards by their code. -/
def all : List Standard :=
  [undefined, mod10, ansi, aba, cba, boc, ansi59, ccitt, pinOff, hello, smartCard, reserved, gpm416, pcos, mpcos,
   proton]

/-- The standard of a code: only its low half counts. -/
def ofCode (code : UInt8) : Standard := all.getD (code.toNat % 16) undefined

def code : Standard → Nat
  | undefined => 0
  | mod10 => 1
  | ansi => 2
  | aba => 3
  | cba => 4
  | boc => 5
  | ansi59 => 6
  | ccitt => 7
  | pinOff => 8
  | hello => 9
  | smartCard => 10
  | reserved => 11
  | gpm416 => 12
  | pcos => 13
  | mpcos => 14
  | proton => 15

def name : Standard → String
  | undefined => "Undefined"
  | mod10 => "Mod10"
  | ansi => "Ansi"
  | aba => "Aba"
  | cba => "Cba"
  | boc => "Boc"
  | ansi59 => "Ansi59"
  | ccitt => "Ccitt"
  | pinOff => "PinOff"
  | hello => "Hello"
  | smartCard => "SmartCard"
  | reserved => "Reserved"
  | gpm416 => "ScGpm416"
  | pcos => "ScPcos"
  | mpcos => "ScMpcos"
  | proton => "Proton"

/-- Six characters for reports. -/
def label : Standard → String
  | undefined => "Undefd"
  | mod10 => "MOD 10"
  | ansi => "ANSI  "
  | aba => "ABA   "
  | cba => "CBA   "
  | boc => "BOC   "
  | ansi59 => "ANSI59"
  | ccitt => "CCITT "
  | pinOff => "PINOFF"
  | hello => "HELLO "
  | smartCard => "SMCARD"
  | reserved => "Resv'd"
  | gpm416 => "SCGPM4"
  | pcos => "SCPCOS"
  | mpcos => "SCMPCO"
  | proton => "PROTON"

theorem code_lt (s : Standard) : s.code < 16 := by cases s <;> decide

theorem ofCode_code (s : Standard) : ofCode (UInt8.ofNat s.code) = s := by cases s <;> rfl

end Standard

end Payphone.Card
