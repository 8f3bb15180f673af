import Payphone.Bytes

/-!
Texts: their bytes, columns, numerals, quoted bytes and white space.

Text becomes bytes as UTF-8 and bytes become text as Latin-1. A text shorter than its column is filled up on the left
or on the right, a longer one is left as it is. Numerals are decimal without leading zeros, set to a width with zeros
or blanks, or lowercase hexadecimal of a fixed number of digits. A byte shown as a quoted character is the Latin-1
character itself where it is visible, otherwise an escape. White space is what has the Unicode property `White_Space`.
-/
namespace Payphone.Text

/-! Text as bytes. -/

/-- The UTF-8 bytes of a list of characters. -/
def utf8Chars (cs : List Char) : Bytes := cs.flatMap String.utf8EncodeChar

def utf8 (s : String) : Bytes := utf8Chars s.toList

/-- Each byte as the character of that number. -/
def latin1 (b : Bytes) : String := String.ofList (b.map fun x => Char.ofNat x.toNat)

/-! Columns. -/

/-- A text of `n` blanks. -/
def blanks (n : Nat) : String := String.ofList (List.replicate n ' ')

/-- Fills up with `fill` before the text. -/
def padLeft (width : Nat) (fill : Char) (text : String) : String :=
  String.ofList (List.replicate (width - text.length) fill) ++ text

/-- Fills up with blanks behind the text. -/
def padRight (width : Nat) (text : String) : String := text ++ blanks (width - text.length)

@[simp] theorem toList_padLeft (width : Nat) (fill : Char) (text : String) :
    (padLeft width fill text).toList = List.replicate (width - text.length) fill ++ text.toList := by
  simp [padLeft]

/-! Decimal numerals. -/

def decimal (n : Nat) : String := String.ofList (Nat.toDigits 10 n)

/-- At least `width` digits, zeros first. -/
def zeroPadded (width n : Nat) : String := padLeft width '0' (decimal n)

/-- At least `width` characters, blanks first. -/
def rightAligned (width n : Nat) : String := padLeft width ' ' (decimal n)

/-! Hexadecimal numerals. -/

/-- The digit of a value below sixteen. -/
def hexDigit (n : Nat) : Char := if n < 10 then Char.ofNat (48 + n) else Char.ofNat (87 + n)

/-- The lowest `width` digits of `n`, highest first. -/
def hexDigits : Nat → Nat → List Char
  | 0, _ => []
  | width + 1, n => hexDigits width (n / 16) ++ [hexDigit (n % 16)]

def hex (width n : Nat) : String := String.ofList (hexDigits width n)

def hexByte (x : UInt8) : String := hex 2 x.toNat

def hexWord (w : UInt16) : String := hex 4 w.toNat

def hexLong (w : UInt32) : String := hex 8 w.toNat

@[simp] theorem length_hexDigits (width n : Nat) : (hexDigits width n).length = width := by
  induction width generalizing n with
  | zero => rfl
  | succ width ih => simp [hexDigits, ih]

/-! Quoted bytes. -/

/-- Printable Latin-1: neither a control, the no-break space nor the soft hyphen. -/
def isVisible (x : UInt8) : Bool := (0x20 ≤ x && x ≤ 0x7e) || (0xa1 ≤ x && x != 0xad)

/-- The fewest hexadecimal digits of a byte. -/
def shortHexByte (x : UInt8) : String := if x < 16 then hex 1 x.toNat else hexByte x

/-- What stands between the quotes: the short escapes, then visible characters, then the number in braces. -/
def escapeByte (x : UInt8) : String :=
  if x == 0 then "\\0"
  else if x == 9 then "\\t"
  else if x == 10 then "\\n"
  else if x == 13 then "\\r"
  else if x == 39 then "\\'"
  else if x == 92 then "\\\\"
  else if isVisible x then String.singleton (Char.ofNat x.toNat)
  else "\\u\x7b" ++ shortHexByte x ++ "\x7d"

def quoteByte (x : UInt8) : String := "'" ++ escapeByte x ++ "'"

/-! White space. -/

/-- The ranges of the property, ascending, ends included. -/
def blankRanges : List (Nat × Nat) :=
  [(0x0009, 0x000d), (0x0020, 0x0020), (0x0085, 0x0085), (0x00a0, 0x00a0), (0x1680, 0x1680), (0x2000, 0x200a),
   (0x2028, 0x2029), (0x202f, 0x202f), (0x205f, 0x205f), (0x3000, 0x3000)]

def isBlank (c : Char) : Bool := blankRanges.any fun r => r.1 ≤ c.toNat && c.toNat ≤ r.2

/-- The property holds of 25 characters. -/
example : (blankRanges.map fun r => r.2 - r.1 + 1).sum = 25 := rfl

example : isBlank '\u00a0' ∧ isBlank '\u3000' ∧ ¬ isBlank '\u200b' ∧ ¬ isBlank 'a' := by decide

end Payphone.Text
