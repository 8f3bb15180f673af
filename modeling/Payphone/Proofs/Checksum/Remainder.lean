import Mathlib.Algebra.Field.ZMod
import Mathlib.Algebra.Polynomial.Div
import Mathlib.Data.ZMod.Basic
import Mathlib.Tactic.ComputeDegree
import Payphone.Proofs.Checksum.Register

/-!
The checksum as the remainder of a polynomial division.

A row of bits is a polynomial over the field of two elements with these coefficients, the highest degree first
(`ofBits`). Read in this way from its lowest bit on, a register is a polynomial of degree below sixteen
(`ofRegister`). This file

1. shows that a step multiplies the polynomial of the register by x and takes the generator away if the degree has
   become sixteen (`ofRegister_shift`);
2. concludes that a bit of data adds its coefficient of x¹⁶ to that product, up to a multiple of the generator
   (`dvd_sub_ofRegister_feed`), and so data as a whole adds itself, moved up by sixteen places
   (`dvd_sub_ofRegister_foldl`);
3. takes the remainder on both sides: what is in the register is a remainder already (`modByMonic_generator`).
-/
namespace Payphone.Checksum

open Polynomial

/-- The polynomial that is divided by. -/
noncomputable def generator : (ZMod 2)[X] := X ^ 16 + X ^ 15 + X ^ 2 + 1

/-- The polynomial with the given coefficients, the highest degree first. -/
noncomputable def ofBits : List Bool → (ZMod 2)[X]
  | [] => 0
  | bit :: bits => (if bit then X ^ bits.length else 0) + ofBits bits

/-- The register as a polynomial: bit `j` is the coefficient of degree `15 - j`. -/
noncomputable def ofRegister (r : UInt16) : (ZMod 2)[X] := ofBits ((List.range 16).map r.toNat.testBit)

theorem monic_generator : generator.Monic := by
  unfold generator
  monicity!

theorem degree_generator : generator.degree = 16 := by
  unfold generator
  compute_degree!

/-! Coefficients. -/

theorem coeff_ofBits (bits : List Bool) (i : Nat) :
    (ofBits bits).coeff i = if bits.reverse[i]? = some true then 1 else 0 := by
  induction bits with
  | nil => simp [ofBits]
  | cons bit bits ih =>
    have top : (if bit then X ^ bits.length else (0 : (ZMod 2)[X])).coeff i =
        if bit && decide (i = bits.length) then 1 else 0 := by
      cases bit
      · simp
      · simp [coeff_X_pow]
    rw [ofBits, coeff_add, ih, top, List.reverse_cons]
    rcases Nat.lt_trichotomy i bits.length with h | rfl | h
    · simp [List.getElem?_append, h, Nat.ne_of_lt h]
    · simp
    · have beyond : (bits.reverse ++ [bit])[i]? = none := List.getElem?_eq_none (by simpa using h)
      have above : bits.reverse[i]? = none := List.getElem?_eq_none (by simpa using Nat.le_of_lt h)
      simp [beyond, above, Nat.ne_of_gt h]

theorem coeff_ofRegister (r : UInt16) (i : Nat) :
    (ofRegister r).coeff i = if i < 16 ∧ r.toNat.testBit (15 - i) then 1 else 0 := by
  rw [ofRegister, coeff_ofBits]
  by_cases h : i < 16
  · rw [List.getElem?_reverse (by simpa using h)]
    simp [h, show 15 - i < 16 by omega]
  · rw [List.getElem?_eq_none (by simp; omega)]
    simp [h]

theorem degree_ofRegister_lt (r : UInt16) : (ofRegister r).degree < generator.degree := by
  rw [degree_generator]
  apply (degree_lt_iff_coeff_zero _ 16).2
  intro i hi
  rw [coeff_ofRegister, if_neg fun h => absurd h.1 (Nat.not_lt.2 hi)]

/-! Steps. -/

theorem ofRegister_xor (a b : UInt16) : ofRegister (a ^^^ b) = ofRegister a + ofRegister b := by
  have two : (1 + 1 : ZMod 2) = 0 := by decide
  ext i
  rw [coeff_add, coeff_ofRegister, coeff_ofRegister, coeff_ofRegister, UInt16.toNat_xor, Nat.testBit_xor]
  by_cases h : i < 16
  · cases a.toNat.testBit (15 - i) <;> cases b.toNat.testBit (15 - i) <;> simp [h, two]
  · simp [h]

theorem ofRegister_zero : ofRegister 0 = 0 := by
  simp [ofRegister, ofBits, List.range_succ]

/-- Halving moves every coefficient up one place; the one of x¹⁵ goes out. -/
theorem ofRegister_half (r : UInt16) :
    ofRegister (r >>> 1) = X * ofRegister r + if r.toNat.testBit 0 then X ^ 16 else 0 := by
  have two : (1 + 1 : ZMod 2) = 0 := by decide
  have next (i : Nat) : (r >>> 1).toNat.testBit i = r.toNat.testBit (i + 1) := by
    rw [UInt16.toNat_shiftRight, Nat.testBit_shiftRight, Nat.add_comm]
    rfl
  have out : (if r.toNat.testBit 0 then X ^ 16 else (0 : (ZMod 2)[X])).coeff = fun i =>
      if i = 16 ∧ r.toNat.testBit 0 then 1 else 0 := by
    funext i
    cases r.toNat.testBit 0 <;> simp [coeff_X_pow]
  ext i
  rw [coeff_add, coeff_ofRegister, next, out]
  cases i with
  | zero =>
    have top : r.toNat.testBit 16 = false := Nat.testBit_lt_two_pow r.toNat_lt
    simp [top]
  | succ i =>
    rw [coeff_X_mul, coeff_ofRegister]
    rcases Nat.lt_trichotomy i 15 with h | rfl | h
    · simp [show i + 1 < 16 by omega, show i < 16 by omega, show i ≠ 15 by omega, show 14 - i + 1 = 15 - i by omega]
    · -- the coefficient goes out on the left, and on the right it is there twice
      cases r.toNat.testBit 0 <;> simp [two]
    · simp [show ¬ i + 1 < 16 by omega, show ¬ i < 16 by omega, show i ≠ 15 by omega]

theorem ofRegister_one : ofRegister 1 = X ^ 15 := by
  have row : (List.range 16).map (UInt16.toNat 1).testBit = true :: List.replicate 15 false := by decide
  rw [ofRegister, row]
  simp [ofBits, List.replicate]

theorem ofRegister_polynomial : ofRegister polynomial = X ^ 15 + X ^ 2 + 1 := by
  have row : (List.range 16).map polynomial.toNat.testBit =
      [true] ++ List.replicate 12 false ++ [true, false, true] := by decide
  rw [ofRegister, row]
  simp [ofBits, List.replicate]
  ring

theorem ofRegister_shift (r : UInt16) :
    ofRegister (shift r) = X * ofRegister r + if r.toNat.testBit 0 then generator else 0 := by
  rw [shift_eq, ofRegister_xor, ofRegister_half]
  cases r.toNat.testBit 0
  · simp [ofRegister_zero]
  · simp only [if_true]
    rw [ofRegister_polynomial, generator]
    ring

/-! Data. -/

/-- One bit of data, up to a multiple of the generator. -/
theorem dvd_sub_ofRegister_feed (r : UInt16) (bit : Bool) :
    generator ∣ X * ofRegister r + (if bit then X ^ 16 else 0) - ofRegister (feed r bit) := by
  have added : ofRegister (r ^^^ if bit then 1 else 0) = ofRegister r + if bit then X ^ 15 else 0 := by
    cases bit
    · simp
    · simp [ofRegister_xor, ofRegister_one]
  have moved : X * (ofRegister r + if bit then X ^ 15 else 0) = X * ofRegister r + if bit then X ^ 16 else 0 := by
    cases bit
    · simp
    · simp only [if_true]
      ring
  rw [feed, ofRegister_shift, added, moved, sub_add_cancel_left]
  have multiple (taken : Bool) : generator ∣ if taken then generator else 0 := by cases taken <;> simp
  exact dvd_neg.2 (multiple _)

/-- All bits of data, up to a multiple of the generator. -/
theorem dvd_sub_ofRegister_foldl (bits : List Bool) (r : UInt16) :
    generator ∣ ofBits bits * X ^ 16 + ofRegister r * X ^ bits.length - ofRegister (bits.foldl feed r) := by
  -- on the bits from the first one on, which the bits behind it move up by their number
  induction bits generalizing r with
  | nil => simp [ofBits]
  | cons bit bits ih =>
    have first : generator ∣ X ^ bits.length *
        (X * ofRegister r + (if bit then X ^ 16 else 0) - ofRegister (feed r bit)) :=
      (dvd_sub_ofRegister_feed r bit).mul_left _
    have both := dvd_add first (ih (feed r bit))
    have sum : ofBits (bit :: bits) * X ^ 16 + ofRegister r * X ^ (bit :: bits).length -
          ofRegister ((bit :: bits).foldl feed r) =
        X ^ bits.length * (X * ofRegister r + (if bit then X ^ 16 else 0) - ofRegister (feed r bit)) +
          (ofBits bits * X ^ 16 + ofRegister (feed r bit) * X ^ bits.length -
            ofRegister (bits.foldl feed (feed r bit))) := by
      rw [ofBits, List.length_cons, List.foldl_cons]
      cases bit
      · simp only [Bool.false_eq_true, if_false]
        ring
      · simp only [if_true]
        ring
    rw [sum]
    exact both

theorem modByMonic_generator (seed : UInt16) (data : Bytes) :
    (ofBits data.bits * X ^ 16 + ofRegister seed * X ^ (8 * data.length)) %ₘ generator =
      ofRegister (crc16 seed data) := by
  have same : generator ∣ ofBits data.bits * X ^ 16 + ofRegister seed * X ^ (8 * data.length) -
      ofRegister (crc16 seed data) := by
    have h := dvd_sub_ofRegister_foldl data.bits seed
    rwa [Bytes.length_bits, ← crc16_eq_feed] at h
  calc (ofBits data.bits * X ^ 16 + ofRegister seed * X ^ (8 * data.length)) %ₘ generator
    _ = ofRegister (crc16 seed data) %ₘ generator := modByMonic_eq_of_dvd_sub monic_generator same
    _ = ofRegister (crc16 seed data) :=
      (modByMonic_eq_self_iff monic_generator).2 (degree_ofRegister_lt (crc16 seed data))

/-- **The checksum is a remainder.** Take the bits of the data, byte by byte and the lowest first, as the
coefficients of a polynomial from the highest degree down, moved up by sixteen places, and add the polynomial of the
seed, moved up in front of them. Divided by the generator this leaves a polynomial whose coefficient of degree
`15 - j` is bit `j` of the checksum. -/
theorem crc16_bits_are_remainder (seed : UInt16) (data : Bytes) (j : Fin 16) :
    ((ofBits data.bits * X ^ 16 + ofRegister seed * X ^ (8 * data.length)) %ₘ generator).coeff (15 - j) =
      if (crc16 seed data).toNat.testBit j then 1 else 0 := by
  have hj := j.isLt
  rw [modByMonic_generator, coeff_ofRegister, Nat.sub_sub_self (by omega)]
  simp [show 15 - j.val < 16 by omega]

end Payphone.Checksum
