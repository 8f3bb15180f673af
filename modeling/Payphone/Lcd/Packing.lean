import Payphone.Bytes
import Payphone.Revision

/-!
Rate classes packed into bytes: one, two or four to a byte, the first in the highest bits.

A class keeps the low bits that its place has room for. So packing loses nothing exactly if every class is at most
`maxClass`, and unpacking gives classes that are. Both find a class by its place (`locate`), and both give nothing
if a place is behind the end of the data.
-/
namespace Payphone.Lcd

/-- The first exchange that is classified. -/
def firstExchange : Nat := 200

/-- The last exchange that is classified. -/
def lastExchange : Nat := 999

/-- The number of exchanges, each with one rate class. -/
def exchangeCount : Nat := lastExchange - firstExchange + 1

/-- The number of bytes in front of the classes. -/
def headerLength : Nat := 2

inductive Packing
  | uncompressed
  | compressed
  | doubleCompressed
deriving Repr, DecidableEq, Inhabited

namespace Packing

def all : List Packing := [uncompressed, compressed, doubleCompressed]

def name : Packing → String
  | uncompressed => "Uncompressed"
  | compressed => "Compressed"
  | doubleCompressed => "DoubleCompressed"

/-- The packing that terminals of a revision expect. -/
def ofRevision : Revision → Packing
  | .mtr1 => compressed
  | .mtr2 => doubleCompressed

/-- The number of classes in a byte. -/
def perByte : Packing → Nat
  | uncompressed => 1
  | compressed => 2
  | doubleCompressed => 4

/-- The number of values of a class. -/
def classCount : Packing → Nat
  | uncompressed => 256
  | compressed => 16
  | doubleCompressed => 4

/-- The largest class that can be packed. -/
def maxClass (p : Packing) : UInt8 := UInt8.ofNat (p.classCount - 1)

def payloadLength (p : Packing) : Nat := headerLength + exchangeCount / p.perByte

def ofPayloadLength? (length : Nat) : Option Packing := all.find? fun p => p.payloadLength == length

/-! Places. -/

/-- Where a class stands: the byte, its bits there, and how many bits are below them. -/
structure Place where
  index : Nat
  mask : UInt8
  shift : UInt8
deriving Repr, DecidableEq

namespace Place

/-- The class at the place, in its byte. -/
def get (place : Place) (x : UInt8) : UInt8 := (x &&& place.mask) >>> place.shift

/-- The byte with another class at the place. -/
def set (place : Place) (x rate : UInt8) : UInt8 := (x &&& ~~~place.mask) ||| ((rate <<< place.shift) &&& place.mask)

end Place

/-- The place of class `i`. -/
def locate (p : Packing) (i : Nat) : Place :=
  match p with
  | uncompressed => ⟨i, 0xff, 0⟩
  | compressed => if i % 2 = 0 then ⟨i / 2, 0xf0, 4⟩ else ⟨i / 2, 0x0f, 0⟩
  | doubleCompressed =>
    let group := UInt8.ofNat (i % 4)
    ⟨i / 4, 0xc0 >>> (group * 2), 6 - group * 2⟩

/-- Class `i`; nothing if the data ends before it. -/
def class? (p : Packing) (data : Bytes) (i : Nat) : Option UInt8 :=
  data[(p.locate i).index]?.map (p.locate i).get

/-- The data with another class `i`; nothing if the data ends before it. -/
def setClass? (p : Packing) (data : Bytes) (i : Nat) (rate : UInt8) : Option Bytes :=
  data[(p.locate i).index]?.map fun x => data.set (p.locate i).index ((p.locate i).set x rate)

/-- Packs classes into `n` bytes. -/
def pack? (p : Packing) (n : Nat) (classes : List UInt8) : Option Bytes :=
  classes.zipIdx.foldlM (fun data entry => p.setClass? data entry.2 entry.1) (List.replicate n 0)

/-- The first `n` classes; nothing if the data ends before the last of them. -/
def unpack? (p : Packing) (n : Nat) (data : Bytes) : Option (Vector UInt8 n) :=
  Vector.ofFnM fun i => p.class? data i

example : compressed.pack? 1 [0x3, 0xa] = some [0x3a] := by decide

example : doubleCompressed.pack? 1 [0, 1, 2, 3] = some [0x1b] := by decide

end Packing

end Payphone.Lcd
