import Mathlib.Logic.Function.Iterate
import Payphone.Checksum
import Payphone.Proofs.Bits

/-!
The checksum register as a linear map.

This file

1. shows that a step is linear in exclusive or (`shift_xor`) and loses nothing (`shift_injective`), so any number
   of steps is and does (`iterate_shift_xor`, `iterate_shift_injective`);
2. takes data in bit by bit (`feed`) and shows that eight steps on a byte are its eight bits (`absorb_eq_feed`), so
   the checksum is one pass over the bits (`crc16_eq_feed`);
3. concludes that the trailer goes on in the same bit order as the payload: over a whole record the register ends
   in zero exactly if the trailer is the checksum of the payload (`isValid_split_iff`).
-/
namespace Payphone.Checksum

open Function

/-! One step. -/

theorem low_bit (r : UInt16) : (r &&& 1 = 1) ↔ r.toNat.testBit 0 = true := by
  rw [← UInt16.toNat_inj, Nat.testBit_zero]
  simp [Nat.and_one_is_mod]

theorem shift_eq (r : UInt16) : shift r = r >>> 1 ^^^ if r.toNat.testBit 0 then polynomial else 0 := by
  unfold shift
  simp only [low_bit]
  split <;> simp

theorem shift_xor (a b : UInt16) : shift (a ^^^ b) = shift a ^^^ shift b := by
  simp only [shift_eq, UInt16.shiftRight_xor, UInt16.toNat_xor, Nat.testBit_xor]
  cases a.toNat.testBit 0 <;> cases b.toNat.testBit 0
  · simp
  · simp only [Bool.false_xor, if_true, Bool.false_eq_true, if_false, UInt16.xor_zero]
    ac_rfl
  · simp only [Bool.xor_false, if_true, Bool.false_eq_true, if_false, UInt16.xor_zero]
    ac_rfl
  · -- the polynomial is added twice on the right, and not at all on the left
    simp only [Bool.xor_self, Bool.false_eq_true, if_false, if_true]
    calc a >>> 1 ^^^ b >>> 1 ^^^ 0
      _ = a >>> 1 ^^^ b >>> 1 ^^^ (polynomial ^^^ polynomial) := by rw [UInt16.xor_self]
      _ = a >>> 1 ^^^ polynomial ^^^ (b >>> 1 ^^^ polynomial) := by ac_rfl

/-- The polynomial has its highest bit set and a halved register has not, so they cannot cancel. -/
theorem eq_zero_of_shift {r : UInt16} (h : shift r = 0) : r = 0 := by
  have hr := r.toNat_lt
  have half : (r >>> 1).toNat = r.toNat / 2 := by simp [Nat.shiftRight_eq_div_pow]
  unfold shift at h
  split at h
  · exfalso
    have e : r >>> 1 = polynomial := UInt16.xor_eq_zero_iff.1 h
    rw [e] at half
    have : polynomial.toNat = 0xa001 := rfl
    omega
  · rename_i low
    rw [low_bit, Nat.testBit_zero, decide_eq_true_eq] at low
    have e : (r >>> 1).toNat = 0 := by rw [h]; rfl
    apply UInt16.toNat_inj.1
    rw [UInt16.toNat_zero]
    omega

theorem shift_injective : Injective shift := by
  intro a b h
  have hz : shift (a ^^^ b) = 0 := by rw [shift_xor, h, UInt16.xor_self]
  exact UInt16.xor_eq_zero_iff.1 (eq_zero_of_shift hz)

/-! Many steps. -/

theorem iterate_shift_zero (n : Nat) : shift^[n] 0 = 0 := iterate_fixed rfl n

theorem iterate_shift_xor (n : Nat) (a b : UInt16) : shift^[n] (a ^^^ b) = shift^[n] a ^^^ shift^[n] b := by
  induction n generalizing a b with
  | zero => rfl
  | succ n ih => rw [iterate_succ_apply, iterate_succ_apply, iterate_succ_apply, shift_xor, ih]

theorem iterate_shift_injective (n : Nat) : Injective shift^[n] := shift_injective.iterate n

theorem iterate_shift_eq_zero_iff {n : Nat} {r : UInt16} : shift^[n] r = 0 ↔ r = 0 := by
  constructor
  · intro h
    exact iterate_shift_injective n (h.trans (iterate_shift_zero n).symm)
  · rintro rfl
    exact iterate_shift_zero n

theorem repeat_shift (n : Nat) (r : UInt16) : Nat.repeat shift n r = shift^[n] r := by
  induction n with
  | zero => rfl
  | succ n ih => rw [Nat.repeat, ih, iterate_succ_apply']

/-! Data bit by bit. -/

/-- One bit of data is added to the lowest bit and shifted out. -/
def feed (register : UInt16) (bit : Bool) : UInt16 := shift (register ^^^ if bit then 1 else 0)

theorem shift_xor_ofNat (a : UInt16) {m : Nat} (hm : m < 65536) :
    shift (a ^^^ .ofNat m) = feed a (m.testBit 0) ^^^ .ofNat (m >>> 1) := by
  have half : UInt16.ofNat m >>> 1 = .ofNat (m >>> 1) := by
    apply UInt16.toNat_inj.1
    rw [UInt16.toNat_shiftRight, UInt16.toNat_ofNat', UInt16.toNat_ofNat', Nat.mod_eq_of_lt hm,
      show UInt16.toNat 1 % 16 = 1 by rfl, Nat.shiftRight_eq_div_pow]
    omega
  have low : (UInt16.ofNat m).toNat.testBit 0 = m.testBit 0 := by
    rw [UInt16.toNat_ofNat', Nat.mod_eq_of_lt hm]
  rw [feed, shift_xor, shift_xor, shift_eq (.ofNat m), half, low]
  cases m.testBit 0
  · simp only [Bool.false_eq_true, if_false, UInt16.xor_zero]
    rw [show shift 0 = 0 by rfl, UInt16.xor_zero]
  · simp only [if_true]
    rw [show shift 1 = polynomial by rfl]
    ac_rfl

/-- Steps on a register that a word was added to: the word leaves it bit by bit, the lowest first. -/
theorem iterate_shift_xor_ofNat (n : Nat) (a : UInt16) {m : Nat} (hm : m < 65536) :
    shift^[n] (a ^^^ .ofNat m) = ((List.range n).map m.testBit).foldl feed a ^^^ .ofNat (m >>> n) := by
  -- on the steps from the first one, which feeds the lowest bit and leaves half of the word
  induction n generalizing a m with
  | zero => rfl
  | succ n ih =>
    have hlt : m >>> 1 < 65536 := by rw [Nat.shiftRight_eq_div_pow]; omega
    have bits : (List.range n).map (m >>> 1).testBit = (List.range n).map (m.testBit ∘ Nat.succ) := by
      apply List.map_congr_left
      intro i _
      rw [Nat.testBit_shiftRight, comp_apply, Nat.add_comm]
    rw [iterate_succ_apply, shift_xor_ofNat a hm, ih _ hlt, List.range_succ_eq_map, List.map_cons, List.map_map,
      List.foldl_cons, bits, ← Nat.shiftRight_add, Nat.add_comm 1 n]

theorem absorb_eq_feed (r : UInt16) (x : UInt8) : absorb r x = (Bytes.byteBits x).foldl feed r := by
  have hx := x.toNat_lt
  have word : x.toUInt16 = .ofNat x.toNat := by
    apply UInt16.toNat_inj.1
    rw [UInt8.toNat_toUInt16, UInt16.toNat_ofNat', Nat.mod_eq_of_lt (by omega)]
  -- after eight steps nothing of the byte is left in the register but what its bits made of it
  have gone : x.toNat >>> 8 = 0 := by rw [Nat.shiftRight_eq_div_pow]; omega
  rw [absorb, repeat_shift, word, iterate_shift_xor_ofNat 8 r (by omega), gone]
  exact UInt16.xor_zero

theorem crc16_eq_feed (seed : UInt16) (data : Bytes) : crc16 seed data = data.bits.foldl feed seed := by
  unfold crc16
  induction data generalizing seed with
  | nil => rfl
  | cons x data ih =>
    rw [List.foldl_cons, ih, absorb_eq_feed, Bytes.bits, Bytes.bits, List.flatMap_cons, List.foldl_append]

theorem crc16_append (seed : UInt16) (a b : Bytes) : crc16 seed (a ++ b) = crc16 (crc16 seed a) b :=
  List.foldl_append

/-! The trailer. -/

/-- A word low byte first goes through the register as its sixteen bits. -/
theorem crc16_ofWord (r w : UInt16) : crc16 r (Bytes.ofWord w) = shift^[16] (r ^^^ w) := by
  have hw := w.toNat_lt
  have gone : w.toNat >>> 16 = 0 := by rw [Nat.shiftRight_eq_div_pow]; omega
  have h := iterate_shift_xor_ofNat 16 r hw
  rw [gone, UInt16.ofNat_toNat] at h
  rw [crc16_eq_feed, Bytes.bits_ofWord, h]
  exact UInt16.xor_zero.symm

/-- The checksum of the payload is the one trailer after which the register is zero. -/
theorem crc16_append_ofWord_eq_zero_iff (seed w : UInt16) (payload : Bytes) :
    crc16 seed (payload ++ Bytes.ofWord w) = 0 ↔ w = crc16 seed payload := by
  rw [crc16_append, crc16_ofWord, iterate_shift_eq_zero_iff, UInt16.xor_eq_zero_iff]
  exact eq_comm

theorem split_append_ofWord (seed w : UInt16) (payload : Bytes) :
    split seed (payload ++ Bytes.ofWord w) = ⟨payload, w, crc16 seed payload⟩ := by
  simp [split, trailerLength, Bytes.word_ofWord]

theorem exists_trailer {record : Bytes} (h : 2 ≤ record.length) :
    ∃ payload w, record = payload ++ Bytes.ofWord w := by
  refine ⟨record.take (record.length - 2), Bytes.word (record.drop (record.length - 2)), ?_⟩
  rw [Bytes.ofWord_word (by simp; omega), List.take_append_drop]

theorem isValid_split_iff (seed : UInt16) {record : Bytes} (h : 2 ≤ record.length) :
    (split seed record).isValid = true ↔ crc16 seed record = 0 := by
  obtain ⟨payload, w, rfl⟩ := exists_trailer h
  rw [split_append_ofWord, crc16_append_ofWord_eq_zero_iff]
  exact beq_iff_eq

theorem two_le_length_stampWith (seed : UInt16) (payload : Bytes) : 2 ≤ (stampWith seed payload).length := by
  simp [stampWith]

theorem crc16_stampWith (seed : UInt16) (payload : Bytes) : crc16 seed (stampWith seed payload) = 0 :=
  (crc16_append_ofWord_eq_zero_iff ..).2 rfl

theorem result_unstampWith (seed : UInt16) {record : Bytes} (h : 2 ≤ record.length) :
    (unstampWith seed record).result = .ok (split seed record) := by
  have hlt : ¬ record.length < trailerLength := by rw [trailerLength]; omega
  unfold unstampWith
  cases hv : (split seed record).isValid <;> simp [hlt, hv, Except.bind]

end Payphone.Checksum
