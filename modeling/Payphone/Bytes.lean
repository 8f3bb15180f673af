/-!
Byte strings and the words in them.

A byte string is the list of its bytes in wire order. Words of two and of four bytes stand with the low byte
first. This file

1. writes and reads words (`ofWord`, `word`, `ofLong`, `long`) and shows that the two undo each other;
2. takes a part out of a byte string, if it is all there (`slice?`), and cuts one into parts of one length
   (`chunks?`);
3. writes a patch over part of a byte string (`overwrite`), which never changes the length of a string that
   holds the patch (`length_overwrite`); where the patch may stick out, `overwrite?` says so.
-/
namespace Payphone

/-- A byte string in wire order. -/
abbrev Bytes := List UInt8

namespace Bytes

/-! Words, low byte first. -/

/-- The two bytes of a word. -/
def ofWord (w : UInt16) : Bytes := [UInt8.ofNat w.toNat, UInt8.ofNat (w.toNat / 256)]

/-- The word of the first two bytes; a byte that is missing counts as zero. -/
def word (b : Bytes) : UInt16 := UInt16.ofNat ((b.getD 0 0).toNat + 256 * (b.getD 1 0).toNat)

/-- The four bytes of a long word. -/
def ofLong (w : UInt32) : Bytes :=
  [UInt8.ofNat w.toNat, UInt8.ofNat (w.toNat / 256), UInt8.ofNat (w.toNat / 65536), UInt8.ofNat (w.toNat / 16777216)]

/-- The long word of the first four bytes; a byte that is missing counts as zero. -/
def long (b : Bytes) : UInt32 :=
  UInt32.ofNat ((b.getD 0 0).toNat + 256 * (b.getD 1 0).toNat + 65536 * (b.getD 2 0).toNat +
    16777216 * (b.getD 3 0).toNat)

@[simp] theorem length_ofWord (w : UInt16) : (ofWord w).length = 2 := rfl

@[simp] theorem length_ofLong (w : UInt32) : (ofLong w).length = 4 := rfl

theorem word_ofWord (w : UInt16) : word (ofWord w) = w := by
  apply UInt16.toNat_inj.1
  have := w.toNat_lt
  simp [word, ofWord]
  omega

theorem long_ofLong (w : UInt32) : long (ofLong w) = w := by
  apply UInt32.toNat_inj.1
  have := w.toNat_lt
  simp [long, ofLong]
  omega

theorem ofWord_word {b : Bytes} (h : b.length = 2) : ofWord (word b) = b := by
  match b, h with
  | [x, y], _ =>
    have hx := x.toNat_lt
    have hy := y.toNat_lt
    simp only [ofWord, word, List.cons.injEq, and_true]
    constructor
    · apply UInt8.toNat_inj.1
      simp
    · apply UInt8.toNat_inj.1
      simp
      omega

theorem ofLong_long {b : Bytes} (h : b.length = 4) : ofLong (long b) = b := by
  match b, h with
  | [x, y, z, w], _ =>
    have hx := x.toNat_lt
    have hy := y.toNat_lt
    have hz := z.toNat_lt
    have hw := w.toNat_lt
    simp only [ofLong, long, List.cons.injEq, and_true]
    refine ⟨?_, ?_, ?_, ?_⟩ <;> apply UInt8.toNat_inj.1 <;> simp <;> omega

/-! Parts. -/

/-- The `length` bytes from `start` on; nothing if the string ends before them. -/
def slice? (b : Bytes) (start length : Nat) : Option Bytes :=
  if start + length ≤ b.length then some ((b.drop start).take length) else none

/-- The parts of `n` bytes, one behind the other, as many as are complete; nothing if they are empty. -/
def chunks? (b : Bytes) (n : Nat) : Option (List Bytes) :=
  if n = 0 then none else some ((List.range (b.length / n)).map fun i => (b.drop (i * n)).take n)

/-! Patches. -/

/-- Writes `patch` over the bytes from `offset` on. -/
def overwrite (b : Bytes) (offset : Nat) (patch : Bytes) : Bytes :=
  b.take offset ++ patch ++ b.drop (offset + patch.length)

/-- Writes `patch` over the bytes from `offset` on; nothing if the string ends before them. -/
def overwrite? (b : Bytes) (offset : Nat) (patch : Bytes) : Option Bytes :=
  if offset + patch.length ≤ b.length then some (b.overwrite offset patch) else none

theorem length_overwrite {b patch : Bytes} {offset : Nat} (h : offset + patch.length ≤ b.length) :
    (overwrite b offset patch).length = b.length := by
  simp [overwrite]
  omega

end Bytes

end Payphone
