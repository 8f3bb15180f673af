import Mathlib.Dynamics.PeriodicPts.Defs
import Mathlib.Tactic.NormNum.Prime
import Payphone.Proofs.Checksum.Register

/-!
The period of the checksum register: 32767 steps bring a register back, and no smaller number of steps does.

A register is a polynomial over the field of two elements, of degree below sixteen and with the coefficient of
x¹⁵ in the lowest bit, and a step multiplies it by x modulo the polynomial of the checksum. So many steps are one
product (`iterate_shift_eq_times`), and powers of x are computed by squaring (`power_eq`). The period divides 32767,
whose prime factors are 7, 31 and 151, and three powers of x show that it divides none of the cofactors.
-/
namespace Payphone.Checksum

open Function

/-! Products of registers. -/

/-- The register of the polynomial 1. -/
def unit : UInt16 := 0x8000

/-- The product, by Horner's rule from the coefficient of x¹⁵ down. -/
def times (a b : UInt16) : UInt16 :=
  (List.range 16).foldl (fun acc j => shift acc ^^^ if a.toNat.testBit j then b else 0) 0

theorem foldl_shift (f : Nat → UInt16) (js : List Nat) (acc : UInt16) :
    js.foldl (fun acc j => shift (acc ^^^ f j)) (shift acc) =
      shift (js.foldl (fun acc j => shift acc ^^^ f j) acc) := by
  induction js generalizing acc with
  | nil => rfl
  | cons j js ih => rw [List.foldl_cons, List.foldl_cons, ih]

theorem times_shift (a b : UInt16) : times a (shift b) = shift (times a b) := by
  have step (j : Nat) :
      (if a.toNat.testBit j then shift b else 0) = shift (if a.toNat.testBit j then b else 0) := by
    split <;> rfl
  rw [times, times, ← foldl_shift]
  simp only [step, shift_xor]
  rfl

theorem times_iterate_shift (a b : UInt16) (n : Nat) : times a (shift^[n] b) = shift^[n] (times a b) := by
  induction n with
  | zero => rfl
  | succ n ih => rw [iterate_succ_apply', iterate_succ_apply', times_shift, ih]

/-- The register of x¹⁵ is 1, so one more step on a product with it is sixteen steps. -/
theorem shift_times_one (a : UInt16) : shift (times a 1) = shift^[16] a := by
  have h := crc16_ofWord 0 a
  rw [UInt16.zero_xor, crc16_eq_feed, Bytes.bits_ofWord, List.foldl_map] at h
  rw [← h, times, ← foldl_shift]
  rfl

theorem times_unit (a : UInt16) : times a unit = a := by
  apply iterate_shift_injective 16
  have one : (1 : UInt16) = shift^[15] unit := by decide +kernel
  calc shift^[16] (times a unit)
    _ = shift (shift^[15] (times a unit)) := by rw [iterate_succ_apply']
    _ = shift (times a (shift^[15] unit)) := by rw [times_iterate_shift]
    _ = shift (times a 1) := by rw [one]
    _ = shift^[16] a := shift_times_one a

theorem iterate_shift_eq_times (n : Nat) (a : UInt16) : shift^[n] a = times a (shift^[n] unit) := by
  rw [times_iterate_shift, times_unit]

/-! Powers of x by squaring. -/

/-- The number with the given binary digits, the highest first. -/
def ofDigits (digits : List Bool) : Nat := digits.foldl (fun n d => 2 * n + d.toNat) 0

def power (digits : List Bool) : UInt16 :=
  digits.foldl (fun a d => if d then shift (times a a) else times a a) unit

theorem power_eq (digits : List Bool) : power digits = shift^[ofDigits digits] unit := by
  -- the digits read so far are the exponent, and the register is that power of x
  have run (n : Nat) : digits.foldl (fun a d => if d then shift (times a a) else times a a) (shift^[n] unit) =
      shift^[digits.foldl (fun n d => 2 * n + d.toNat) n] unit := by
    induction digits generalizing n with
    | nil => rfl
    | cons d digits ih =>
      have square : times (shift^[n] unit) (shift^[n] unit) = shift^[2 * n] unit := by
        rw [← iterate_shift_eq_times, ← iterate_add_apply, ← Nat.two_mul]
      rw [List.foldl_cons, List.foldl_cons, ← ih]
      cases d
      · simp [square]
      · simp [square, iterate_succ_apply']
  exact run 0

theorem iterate_shift_32767 (r : UInt16) : shift^[32767] r = r := by
  rw [iterate_shift_eq_times, show 32767 = ofDigits (List.replicate 15 true) by rfl, ← power_eq,
    show power (List.replicate 15 true) = unit by decide +kernel, times_unit]

/-- The cofactors of 7, 31 and 151 in 32767, in binary. -/
theorem iterate_shift_cofactor {n : Nat} (h : n = 4681 ∨ n = 1057 ∨ n = 217) : shift^[n] unit ≠ unit := by
  rcases h with rfl | rfl | rfl
  · rw [show 4681 = ofDigits [true, false, false, true, false, false, true, false, false, true, false, false, true]
      by rfl, ← power_eq]
    decide +kernel
  · rw [show 1057 = ofDigits [true, false, false, false, false, true, false, false, false, false, true] by rfl,
      ← power_eq]
    decide +kernel
  · rw [show 217 = ofDigits [true, true, false, true, true, false, false, true] by rfl, ← power_eq]
    decide +kernel

/-! The period. -/

/-- A proper divisor of 32767 misses one of its prime factors. -/
theorem dvd_cofactor {d : Nat} (h : d ∣ 32767) (hne : d ≠ 32767) : d ∣ 4681 ∨ d ∣ 1057 ∨ d ∣ 217 := by
  obtain ⟨k, hk⟩ := h
  have hk1 : k ≠ 1 := by
    rintro rfl
    omega
  -- the other factor has a prime factor, which is one of the three
  obtain ⟨p, hp, m, rfl⟩ := Nat.exists_prime_and_dvd hk1
  have e : 32767 = p * (d * m) := by rw [hk]; ac_rfl
  have hdvd : p ∣ 7 * (31 * 151) := ⟨d * m, e⟩
  rcases hp.dvd_mul.1 hdvd with h7 | h31
  · obtain rfl := (Nat.prime_dvd_prime_iff_eq hp (by norm_num)).1 h7
    exact .inl ⟨m, by omega⟩
  · rcases hp.dvd_mul.1 h31 with h31 | h151
    · obtain rfl := (Nat.prime_dvd_prime_iff_eq hp (by norm_num)).1 h31
      exact .inr (.inl ⟨m, by omega⟩)
    · obtain rfl := (Nat.prime_dvd_prime_iff_eq hp (by norm_num)).1 h151
      exact .inr (.inr ⟨m, by omega⟩)

theorem minimalPeriod_shift : minimalPeriod shift unit = 32767 := by
  by_contra hne
  have hd : minimalPeriod shift unit ∣ 32767 := IsPeriodicPt.minimalPeriod_dvd (iterate_shift_32767 unit)
  rcases dvd_cofactor hd hne with h | h | h
  · exact iterate_shift_cofactor (.inl rfl) (isPeriodicPt_iff_minimalPeriod_dvd.2 h)
  · exact iterate_shift_cofactor (.inr (.inl rfl)) (isPeriodicPt_iff_minimalPeriod_dvd.2 h)
  · exact iterate_shift_cofactor (.inr (.inr rfl)) (isPeriodicPt_iff_minimalPeriod_dvd.2 h)

/-- One flipped bit comes back after no fewer than 32767 steps. -/
theorem iterate_shift_one_ne {n : Nat} (h0 : 0 < n) (h : n < 32767) : shift^[n] 1 ≠ 1 := by
  intro e
  have one : (1 : UInt16) = shift^[15] unit := by decide +kernel
  -- 1 is the register of x¹⁵, and fifteen steps can be taken back
  rw [one, ← iterate_add_apply, Nat.add_comm, iterate_add_apply] at e
  have hu : IsPeriodicPt shift n unit := iterate_shift_injective 15 e
  have hle := Nat.le_of_dvd h0 hu.minimalPeriod_dvd
  rw [minimalPeriod_shift] at hle
  omega

end Payphone.Checksum
