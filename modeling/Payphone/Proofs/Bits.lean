import Mathlib.Data.Finset.Basic
import Mathlib.Data.Nat.Bitwise
import Payphone.Bytes
import Payphone.Proofs.Rows

/-!
Byte strings bit by bit.

Bits are numbered byte by byte, the lowest bit of each byte first (`bits`). `flip` changes the bits at a set of
positions, and `bits_flip` says that it changes these and no others. A word that is written low byte first keeps
its sixteen bits in one row (`bits_ofWord`).
-/
namespace Payphone.Bytes

/-- The eight bits of a byte, the lowest first. -/
def byteBits (x : UInt8) : List Bool := (List.range 8).map x.toNat.testBit

def bits (b : Bytes) : List Bool := b.flatMap byteBits

/-- The byte whose bits are those that `E` has among the eight positions from `8 * i` on. -/
def mask (E : Finset Nat) (i : Nat) : UInt8 := UInt8.ofNat (Nat.ofBits fun j : Fin 8 => decide (8 * i + j ∈ E))

/-- Flips the bits at the positions in `E`. -/
def flip (E : Finset Nat) (b : Bytes) : Bytes := b.mapIdx fun i x => x ^^^ mask E i

@[simp] theorem length_byteBits (x : UInt8) : (byteBits x).length = 8 := by simp [byteBits]

@[simp] theorem length_bits (b : Bytes) : (bits b).length = 8 * b.length := length_flatMap_rows length_byteBits b

@[simp] theorem length_flip (E : Finset Nat) (b : Bytes) : (flip E b).length = b.length := by simp [flip]

theorem getElem?_bits (b : Bytes) (q : Nat) : (bits b)[q]? = b[q / 8]?.map fun x => x.toNat.testBit (q % 8) := by
  conv => lhs; rw [← Nat.div_add_mod q 8]
  rw [bits, getElem?_flatMap_rows length_byteBits _ _ (Nat.mod_lt _ (by decide))]
  cases b[q / 8]? with
  | none => rfl
  | some x => simp [byteBits, Nat.mod_lt]

theorem testBit_mask (E : Finset Nat) (i : Nat) {j : Nat} (hj : j < 8) :
    (mask E i).toNat.testBit j = decide (8 * i + j ∈ E) := by
  have hlt : Nat.ofBits (fun j : Fin 8 => decide (8 * i + j ∈ E)) < 256 := Nat.ofBits_lt_two_pow _
  rw [mask, UInt8.toNat_ofNat', Nat.mod_eq_of_lt hlt, Nat.testBit_ofBits_lt _ _ hj]

theorem bits_flip (E : Finset Nat) (b : Bytes) :
    bits (flip E b) = (bits b).mapIdx fun q x => x ^^ decide (q ∈ E) := by
  apply List.ext_getElem?
  intro q
  rw [List.getElem?_mapIdx, getElem?_bits, getElem?_bits, flip, List.getElem?_mapIdx]
  cases b[q / 8]? with
  | none => rfl
  | some x =>
    simp only [Option.map_some, UInt8.toNat_xor, Nat.testBit_xor,
      testBit_mask E _ (Nat.mod_lt q (by decide : 0 < 8)), Nat.div_add_mod]

theorem bits_ofWord (w : UInt16) : bits (ofWord w) = (List.range 16).map w.toNat.testBit := by
  have hw := w.toNat_lt
  apply List.ext_getElem?
  intro q
  rw [getElem?_bits]
  by_cases hq : q < 16
  · rw [List.getElem?_map, List.getElem?_range hq]
    by_cases h : q < 8
    · have low : (w.toNat % 2 ^ 8).testBit q = w.toNat.testBit q := by
        rw [Nat.testBit_mod_two_pow]
        simp [h]
      simpa [ofWord, Nat.div_eq_of_lt h, Nat.mod_eq_of_lt h] using low
    · obtain ⟨j, rfl⟩ : ∃ j, q = 8 + j := ⟨q - 8, by omega⟩
      have high : w.toNat / 256 % 256 = w.toNat / 2 ^ 8 := by omega
      rw [show (8 + j) / 8 = 1 by omega, show (8 + j) % 8 = j by omega]
      simp only [ofWord, List.getElem?_cons_succ, List.getElem?_cons_zero, Option.map_some, UInt8.toNat_ofNat',
        Option.some.injEq]
      rw [show 2 ^ 8 = 256 by rfl, high, Nat.testBit_div_two_pow, Nat.add_comm]
  · rw [List.getElem?_eq_none (by simp; omega), List.getElem?_eq_none (by simp; omega)]
    rfl

/-! The bits of a byte under the operations on it. -/

theorem testBit_not (x : UInt8) {b : Nat} (hb : b < 8) : (~~~x).toNat.testBit b = !x.toNat.testBit b := by
  have hx := x.toNat_lt
  have complement : UInt8.size - 1 - x.toNat = 2 ^ 8 - (x.toNat + 1) := by
    rw [Nat.sub_sub, Nat.add_comm]
    rfl
  rw [UInt8.toNat_not, complement, Nat.testBit_two_pow_sub_succ hx, decide_eq_true hb, Bool.true_and]

theorem testBit_shiftLeft (x s : UInt8) (hs : s.toNat < 8) {b : Nat} (hb : b < 8) (hsb : s.toNat ≤ b) :
    (x <<< s).toNat.testBit b = x.toNat.testBit (b - s.toNat) := by
  rw [UInt8.toNat_shiftLeft, Nat.mod_eq_of_lt hs, Nat.testBit_mod_two_pow, Nat.testBit_shiftLeft, decide_eq_true hb,
    decide_eq_true hsb, Bool.true_and, Bool.true_and]

end Payphone.Bytes
