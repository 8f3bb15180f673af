import Payphone.Bytes

/-!
Values of a fixed width on the wire.

A `FixedWidth α` writes each value of `α` as exactly `width` bytes and reads every string of that length, and the
two undo each other in both directions: the strings of length `width` are the values, no more and no less. Forms
are built from single bytes and words by putting two side by side (`pair`), repeating one (`vector`) and renaming
the values (`map`), so the law holds of every record put together from them.
-/
namespace Payphone

/-- A one-to-one correspondence between `α` and the byte strings of length `width`. -/
structure FixedWidth (α : Type) where
  width : Nat
  encode : α → Bytes
  /-- Reads a string of length `width`; what it gives on others says nothing. -/
  decode : Bytes → α
  length_encode : ∀ a, (encode a).length = width
  decode_encode : ∀ a, decode (encode a) = a
  encode_decode : ∀ b, b.length = width → encode (decode b) = b

namespace FixedWidth

variable {α β : Type}

/-! Single bytes and words. -/

def byte : FixedWidth UInt8 where
  width := 1
  encode x := [x]
  decode b := b.headD 0
  length_encode _ := rfl
  decode_encode _ := rfl
  encode_decode b h := by
    obtain ⟨x, rfl⟩ := List.length_eq_one_iff.1 h
    rfl

def word : FixedWidth UInt16 where
  width := 2
  encode := Bytes.ofWord
  decode := Bytes.word
  length_encode := Bytes.length_ofWord
  decode_encode := Bytes.word_ofWord
  encode_decode _ := Bytes.ofWord_word

def long : FixedWidth UInt32 where
  width := 4
  encode := Bytes.ofLong
  decode := Bytes.long
  length_encode := Bytes.length_ofLong
  decode_encode := Bytes.long_ofLong
  encode_decode _ := Bytes.ofLong_long

@[simp] theorem encode_byte (x : UInt8) : byte.encode x = [x] := rfl

@[simp] theorem encode_word (w : UInt16) : word.encode w = Bytes.ofWord w := rfl

@[simp] theorem encode_long (w : UInt32) : long.encode w = Bytes.ofLong w := rfl

/-! Compound forms. -/

/-- The first form, then the second. -/
def pair (f : FixedWidth α) (g : FixedWidth β) : FixedWidth (α × β) where
  width := f.width + g.width
  encode x := f.encode x.1 ++ g.encode x.2
  decode b := (f.decode (b.take f.width), g.decode (b.drop f.width))
  length_encode x := by simp [f.length_encode, g.length_encode]
  decode_encode x := by
    rw [List.take_left' (f.length_encode _), List.drop_left' (f.length_encode _), f.decode_encode, g.decode_encode]
  encode_decode b h := by
    rw [f.encode_decode _ (by simp; omega), g.encode_decode _ (by simp; omega), List.take_append_drop]

@[simp] theorem encode_pair (f : FixedWidth α) (g : FixedWidth β) (x : α × β) :
    (f.pair g).encode x = f.encode x.1 ++ g.encode x.2 := rfl

/-- The same bytes under other values. -/
def map (f : FixedWidth α) (into : α → β) (back : β → α) (into_back : ∀ y, into (back y) = y)
    (back_into : ∀ x, back (into x) = x) : FixedWidth β where
  width := f.width
  encode y := f.encode (back y)
  decode b := into (f.decode b)
  length_encode y := f.length_encode _
  decode_encode y := by rw [f.decode_encode, into_back]
  encode_decode b h := by rw [back_into, f.encode_decode b h]

@[simp] theorem encode_map (f : FixedWidth α) (into : α → β) (back : β → α) (into_back : ∀ y, into (back y) = y)
    (back_into : ∀ x, back (into x) = x) (y : β) :
    (f.map into back into_back back_into).encode y = f.encode (back y) := rfl

/-- Reads `n` values that stand one behind the other. -/
def decodeMany (f : FixedWidth α) : Nat → Bytes → List α
  | 0, _ => []
  | n + 1, b => f.decode (b.take f.width) :: decodeMany f n (b.drop f.width)

@[simp] theorem length_decodeMany (f : FixedWidth α) (n : Nat) (b : Bytes) : (f.decodeMany n b).length = n := by
  induction n generalizing b with
  | zero => rfl
  | succ n ih => simp [decodeMany, ih]

theorem length_flatMap_encode (f : FixedWidth α) (xs : List α) :
    (xs.flatMap f.encode).length = xs.length * f.width := by
  induction xs with
  | nil => simp
  | cons x xs ih => simp [ih, f.length_encode, Nat.succ_mul, Nat.add_comm]

theorem decodeMany_flatMap (f : FixedWidth α) (xs : List α) :
    f.decodeMany xs.length (xs.flatMap f.encode) = xs := by
  induction xs with
  | nil => rfl
  | cons x xs ih =>
    rw [List.flatMap_cons, List.length_cons, decodeMany, List.take_left' (f.length_encode _),
      List.drop_left' (f.length_encode _), f.decode_encode, ih]

theorem flatMap_decodeMany (f : FixedWidth α) (n : Nat) (b : Bytes) (h : b.length = n * f.width) :
    (f.decodeMany n b).flatMap f.encode = b := by
  induction n generalizing b with
  | zero =>
    rw [Nat.zero_mul] at h
    rw [List.length_eq_zero_iff.1 h]
    rfl
  | succ n ih =>
    rw [Nat.succ_mul] at h
    rw [decodeMany, List.flatMap_cons, ih _ (by simp; omega), f.encode_decode _ (by simp; omega),
      List.take_append_drop]

/-- The form `n` times. -/
def vector (n : Nat) (f : FixedWidth α) : FixedWidth (Vector α n) where
  width := n * f.width
  encode v := v.toList.flatMap f.encode
  decode b := ⟨(f.decodeMany n b).toArray, by simp⟩
  length_encode v := by rw [length_flatMap_encode, Vector.length_toList]
  decode_encode v := by
    have := decodeMany_flatMap f v.toList
    rw [Vector.length_toList] at this
    apply Vector.toList_inj.1
    simpa [Vector.toList] using this
  encode_decode b h := flatMap_decodeMany f n b h

@[simp] theorem encode_vector {n : Nat} (f : FixedWidth α) (v : Vector α n) :
    (f.vector n).encode v = v.toList.flatMap f.encode := rfl

/-- A string of `n` bytes, taken as it is. -/
def bytes (n : Nat) : FixedWidth (Vector UInt8 n) := vector n byte

@[simp] theorem encode_bytes {n : Nat} (v : Vector UInt8 n) : (bytes n).encode v = v.toList := by
  rw [bytes, encode_vector]
  exact List.flatMap_singleton' v.toList

end FixedWidth

end Payphone
