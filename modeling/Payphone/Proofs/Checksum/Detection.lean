import Mathlib.Algebra.Group.Nat.Even
import Mathlib.Data.Finset.Card
import Mathlib.Data.Finset.Fold
import Payphone.Proofs.Catalog
import Payphone.Proofs.Checksum.Period

/-!
Flipped bits that the checksum cannot miss.

The register is linear, so flipping bits of a record adds to it what the flipped bits alone would leave there: the
syndrome of the set of their positions (`crc16_flip`). A stamped record leaves zero, so the altered one is refused
exactly if the syndrome is not zero (`refuses_flip_iff`). This file shows that the syndrome is not zero

1. if an odd number of bits is flipped: a step keeps the parity of the register (`parity_syndrome`);
2. if two bits are flipped that are less than 32767 apart: the register of one of them has not come back to the
   other (`syndrome_pair_ne_zero`);
3. if the flipped bits lie within sixteen places of one another: they are one word that was added to the register
   (`syndrome_burst`).
-/
namespace Payphone.Checksum

open Function

/-! The syndrome. -/

/-- What flipping the bits at the positions in `E`, of `n` bits in all, adds to the register. -/
def syndrome (n : Nat) (E : Finset Nat) : UInt16 := E.fold (· ^^^ ·) 0 fun q => shift^[n - q] 1

/-- The positions in `E`, as a row of bits. -/
def indicator (n : Nat) (E : Finset Nat) : List Bool := (List.range n).map fun q => decide (q ∈ E)

theorem syndrome_insert {n q : Nat} {E : Finset Nat} (h : q ∉ E) :
    syndrome n (insert q E) = shift^[n - q] 1 ^^^ syndrome n E := Finset.fold_insert h

theorem feed_xor (a b : UInt16) (x y : Bool) : feed (a ^^^ b) (x ^^ y) = feed a x ^^^ feed b y := by
  rw [feed, feed, feed, ← shift_xor]
  congr 1
  cases x <;> cases y <;>
    simp only [Bool.xor_false, Bool.false_xor, Bool.xor_self, if_true, Bool.false_eq_true, if_false, UInt16.xor_zero]
  · ac_rfl
  · ac_rfl
  · calc a ^^^ b
      _ = a ^^^ b ^^^ (1 ^^^ 1) := by rw [UInt16.xor_self, UInt16.xor_zero]
      _ = a ^^^ 1 ^^^ (b ^^^ 1) := by ac_rfl

theorem foldl_feed_zipWith {xs ys : List Bool} (h : xs.length = ys.length) (a b : UInt16) :
    (xs.zipWith xor ys).foldl feed (a ^^^ b) = xs.foldl feed a ^^^ ys.foldl feed b := by
  induction xs generalizing ys a b with
  | nil =>
    cases ys with
    | nil => rfl
    | cons y ys => simp at h
  | cons x xs ih =>
    cases ys with
    | nil => simp at h
    | cons y ys =>
      rw [List.zipWith_cons_cons, List.foldl_cons, List.foldl_cons, List.foldl_cons, feed_xor]
      exact ih (by simpa using h) _ _

theorem foldl_feed_single (n q : Nat) :
    (indicator n {q}).foldl feed 0 = if q < n then shift^[n - q] 1 else 0 := by
  -- by the place of the bit: it is still to come, it is the last one, or it has been shifted before
  induction n with
  | zero => rfl
  | succ n ih =>
    rw [indicator] at ih ⊢
    rw [List.range_succ, List.map_append, List.foldl_append, ih]
    rcases Nat.lt_trichotomy q n with h | rfl | h
    · have hne : n ≠ q := by omega
      simp [h, hne, feed, show q < n + 1 by omega, show n + 1 - q = n - q + 1 by omega, iterate_succ_apply']
    · simp [feed]
    · have hne : n ≠ q := by omega
      simp [hne, feed, show ¬ q < n by omega, show ¬ q < n + 1 by omega]
      rfl

theorem foldl_feed_indicator {n : Nat} {E : Finset Nat} (h : ∀ q ∈ E, q < n) :
    (indicator n E).foldl feed 0 = syndrome n E := by
  induction E using Finset.induction with
  | empty =>
    have zeros : ∀ js : List Nat, (js.map fun q => decide (q ∈ (∅ : Finset Nat))).foldl feed 0 = 0 := by
      intro js
      induction js with
      | nil => rfl
      | cons j js ih => simpa [feed, show shift 0 = 0 by rfl] using ih
    exact zeros _
  | insert q E hq ih =>
    -- a position that is not in the set yet is a row of its own, and rows add up
    have split : indicator n (insert q E) = (indicator n {q}).zipWith xor (indicator n E) := by
      simp only [indicator, List.zipWith_map, List.zipWith_self]
      apply List.map_congr_left
      intro i _
      by_cases hi : i = q
      · subst hi
        simp [hq]
      · simp [hi]
    rw [split, syndrome_insert hq, ← ih fun i hi => h i (Finset.mem_insert_of_mem hi)]
    have hlt := h q (Finset.mem_insert_self q E)
    have single := foldl_feed_single n q
    rw [if_pos hlt] at single
    rw [← single, ← foldl_feed_zipWith (by simp [indicator]), UInt16.xor_self]

theorem crc16_flip (seed : UInt16) {E : Finset Nat} {record : Bytes} (h : ∀ q ∈ E, q < 8 * record.length) :
    crc16 seed (record.flip E) = crc16 seed record ^^^ syndrome (8 * record.length) E := by
  have flipped : (record.flip E).bits = record.bits.zipWith xor (indicator (8 * record.length) E) := by
    rw [Bytes.bits_flip]
    apply List.ext_getElem?
    intro q
    by_cases hq : q < 8 * record.length
    · simp [indicator, hq]
    · simp [indicator, hq]
  rw [crc16_eq_feed, crc16_eq_feed, flipped, ← foldl_feed_indicator h,
    ← foldl_feed_zipWith (by simp [indicator]), UInt16.xor_zero]

/-! Records that are refused. -/

/-- The trailer comes off the record, and then its payload is refused. -/
def Refuses (seed : UInt16) (record : Bytes) : Prop :=
  ∃ s, (unstampWith seed record).result = .ok s ∧ s.isValid = false ∧
    s.check = .error (.checksumMismatch s.stored s.calculated)

theorem refuses_iff (seed : UInt16) {record : Bytes} (h : 2 ≤ record.length) :
    Refuses seed record ↔ crc16 seed record ≠ 0 := by
  rw [Refuses, result_unstampWith seed h, ne_eq, ← isValid_split_iff seed h, Bool.not_eq_true]
  constructor
  · rintro ⟨s, hs, hv, -⟩
    obtain rfl := Except.ok.inj hs
    exact hv
  · intro hv
    exact ⟨_, rfl, hv, by simp [Stamped.check, hv]⟩

/-- An altered record is refused exactly if the flipped bits leave something in the register. -/
theorem refuses_flip_iff (seed : UInt16) (payload : Bytes) {E : Finset Nat}
    (h : ∀ q ∈ E, q < 8 * (stampWith seed payload).length) :
    Refuses seed ((stampWith seed payload).flip E) ↔ syndrome (8 * (stampWith seed payload).length) E ≠ 0 := by
  rw [refuses_iff seed (by simpa using two_le_length_stampWith seed payload), crc16_flip seed h, crc16_stampWith,
    UInt16.zero_xor]

/-! An odd number of bits. -/

/-- Whether the number of bits that are set is odd. -/
def parity (r : UInt16) : Bool := ((List.range 16).map r.toNat.testBit).foldr xor false

theorem foldr_xor_map (f g : Nat → Bool) (js : List Nat) :
    (js.map fun j => f j ^^ g j).foldr xor false = ((js.map f).foldr xor false ^^ (js.map g).foldr xor false) := by
  induction js with
  | nil => rfl
  | cons j js ih =>
    rw [List.map_cons, List.map_cons, List.map_cons, List.foldr_cons, List.foldr_cons, List.foldr_cons, ih]
    simp only [Bool.xor_assoc, Bool.xor_left_comm]

theorem parity_xor (a b : UInt16) : parity (a ^^^ b) = (parity a ^^ parity b) := by
  rw [parity, parity, parity, ← foldr_xor_map]
  congr 1
  apply List.map_congr_left
  intro j _
  rw [UInt16.toNat_xor, Nat.testBit_xor]

/-- Halving drops the lowest bit. -/
theorem parity_half (r : UInt16) : parity (r >>> 1) = (parity r ^^ r.toNat.testBit 0) := by
  have next : (r >>> 1).toNat.testBit = fun i => r.toNat.testBit (i + 1) := by
    funext i
    rw [UInt16.toNat_shiftRight, Nat.testBit_shiftRight, Nat.add_comm]
    rfl
  -- the same fifteen bits stand in both rows, with nothing above them in the halved register
  have top : r.toNat.testBit 16 = false := Nat.testBit_lt_two_pow r.toNat_lt
  have above : (List.range 16).map (r >>> 1).toNat.testBit =
      (List.range 15).map (fun i => r.toNat.testBit (i + 1)) ++ [false] := by
    rw [next, List.range_succ, List.map_append, List.map_singleton, top]
  have below : (List.range 16).map r.toNat.testBit =
      r.toNat.testBit 0 :: (List.range 15).map fun i => r.toNat.testBit (i + 1) := by
    rw [List.range_succ_eq_map, List.map_cons, List.map_map]
    rfl
  rw [parity, parity, above, below, List.foldr_append, List.foldr_cons, List.foldr_cons, List.foldr_nil,
    Bool.xor_false, Bool.xor_comm, ← Bool.xor_assoc, Bool.xor_self, Bool.false_xor]

theorem parity_shift (r : UInt16) : parity (shift r) = parity r := by
  rw [shift_eq, parity_xor, parity_half]
  cases r.toNat.testBit 0
  · simp [show parity 0 = false by decide]
  · simp [show parity polynomial = true by decide]

theorem parity_iterate_shift (n : Nat) (r : UInt16) : parity (shift^[n] r) = parity r := by
  induction n with
  | zero => rfl
  | succ n ih => rw [iterate_succ_apply', parity_shift, ih]

theorem parity_syndrome (n : Nat) (E : Finset Nat) : parity (syndrome n E) = decide (Odd E.card) := by
  induction E using Finset.induction with
  | empty => simp [syndrome, show parity 0 = false by decide]
  | insert q E hq ih =>
    rw [syndrome_insert hq, parity_xor, parity_iterate_shift, ih, Finset.card_insert_of_notMem hq,
      show parity 1 = true by decide]
    by_cases h : Odd E.card <;> simp [h, Nat.odd_add_one]

/-! Two bits. -/

theorem syndrome_pair_ne_zero {n a b : Nat} (hab : a < b) (hb : b < n) (hn : b - a < 32767) :
    syndrome n {a, b} ≠ 0 := by
  intro h
  rw [syndrome_insert (by simp; omega), syndrome, Finset.fold_singleton, UInt16.xor_zero, UInt16.xor_eq_zero_iff,
    show n - a = n - b + (b - a) by omega, iterate_add_apply] at h
  exact iterate_shift_one_ne (by omega) hn (iterate_shift_injective _ h)

/-! Bits close together. -/

/-- The word of the bits that `E` has among the sixteen positions from `p` on. -/
def window (E : Finset Nat) (p : Nat) : UInt16 := E.fold (· ^^^ ·) 0 fun q => UInt16.ofNat (2 ^ (q - p))

theorem iterate_shift_two_pow : ∀ j < 16, shift^[j] (.ofNat (2 ^ j)) = 1 := by decide +kernel

theorem testBit_window {p : Nat} {E : Finset Nat} (hp : ∀ q ∈ E, p ≤ q ∧ q < p + 16) (j : Nat) :
    (window E p).toNat.testBit j = decide (p + j ∈ E) := by
  induction E using Finset.induction with
  | empty => simp [window]
  | insert q E hq ih =>
    obtain ⟨hle, hlt⟩ := hp q (Finset.mem_insert_self q E)
    have hpow : (UInt16.ofNat (2 ^ (q - p))).toNat = 2 ^ (q - p) := by
      rw [UInt16.toNat_ofNat', Nat.mod_eq_of_lt (Nat.pow_lt_pow_right (by decide) (by omega))]
    have ih := ih fun i hi => hp i (Finset.mem_insert_of_mem hi)
    rw [window, Finset.fold_insert hq, ← window, UInt16.toNat_xor, Nat.testBit_xor, ih, hpow, Nat.testBit_two_pow]
    by_cases hj : p + j = q
    · simp [hj, hq, show q - p = j by omega]
    · simp [hj, show q - p ≠ j by omega]

theorem window_ne_zero {p : Nat} {E : Finset Nat} (hE : E.Nonempty) (hp : ∀ q ∈ E, p ≤ q ∧ q < p + 16) :
    window E p ≠ 0 := by
  obtain ⟨q, hq⟩ := hE
  have hle := (hp q hq).1
  intro h
  have hbit := testBit_window hp (q - p)
  simp [h, show p + (q - p) = q by omega, hq] at hbit

theorem syndrome_burst {n p : Nat} {E : Finset Nat} (hn : ∀ q ∈ E, q < n)
    (hp : ∀ q ∈ E, p ≤ q ∧ q < p + 16) :
    syndrome n E = shift^[n - p] (window E p) := by
  -- a bit that is shifted down to the lowest place has gone the first part of its way there
  have same (q : Nat) (hq : q ∈ E) : shift^[n - q] 1 = shift^[n - p] (.ofNat (2 ^ (q - p))) := by
    have hlt := hn q hq
    obtain ⟨hle, hlt'⟩ := hp q hq
    rw [← iterate_shift_two_pow (q - p) (by omega), ← iterate_add_apply,
      show n - q + (q - p) = n - p by omega]
  rw [syndrome, Finset.fold_congr same, window, ← Finset.fold_hom (iterate_shift_xor (n - p)),
    iterate_shift_zero]

/-! What is never accepted. -/

theorem syndrome_ne_zero_of_card {n : Nat} {E : Finset Nat} (hE : ∀ q ∈ E, q < n)
    (h : Odd E.card ∨ E.card = 2 ∧ n ≤ 32767) : syndrome n E ≠ 0 := by
  rcases h with hodd | ⟨htwo, hn⟩
  · intro hz
    have hp := parity_syndrome n E
    rw [hz, decide_eq_true hodd] at hp
    exact absurd hp (by decide)
  · obtain ⟨a, b, hab, rfl⟩ := Finset.card_eq_two.1 htwo
    have ha := hE a (by simp)
    have hb := hE b (by simp)
    rcases Nat.lt_or_gt_of_ne hab with hlt | hlt
    · exact syndrome_pair_ne_zero hlt hb (by omega)
    · rw [Finset.pair_comm]
      exact syndrome_pair_ne_zero hlt ha (by omega)

theorem refuses_of_card (seed : UInt16) (payload : Bytes) {E : Finset Nat}
    (hE : ∀ q ∈ E, q < 8 * (stampWith seed payload).length)
    (h : Odd E.card ∨ E.card = 2 ∧ (stampWith seed payload).length ≤ 4095) :
    Refuses seed ((stampWith seed payload).flip E) := by
  rw [refuses_flip_iff seed payload hE]
  apply syndrome_ne_zero_of_card hE
  rcases h with hodd | ⟨htwo, hlen⟩
  · exact .inl hodd
  · exact .inr ⟨htwo, by omega⟩

/-- **Odd numbers of bits, and pairs.** A stamped record is refused when an odd number of its bits is flipped, and
when two bits are, provided that it has at most 4095 bytes. So one, two or three flipped bits never pass in a
record of that length, and every payload of the catalog makes one. -/
theorem odd_flips_and_pairs_refused :
    (∀ (seed : UInt16) (payload : Bytes) (E : Finset Nat), (∀ q ∈ E, q < 8 * (stampWith seed payload).length) →
      Odd E.card ∨ E.card = 2 ∧ (stampWith seed payload).length ≤ 4095 →
      Refuses seed ((stampWith seed payload).flip E)) ∧
    (∀ (seed : UInt16) (payload : Bytes) (E : Finset Nat), (∀ q ∈ E, q < 8 * (stampWith seed payload).length) →
      (stampWith seed payload).length ≤ 4095 → 1 ≤ E.card → E.card ≤ 3 →
      Refuses seed ((stampWith seed payload).flip E)) ∧
    ∀ (seed : UInt16) (payload : Bytes) (id : UInt8) (revision : Revision),
      Catalog.expectedSize id revision = .ok payload.length → (stampWith seed payload).length ≤ 4095 := by
  refine ⟨fun seed payload E hE h => refuses_of_card seed payload hE h, ?_, ?_⟩
  · intro seed payload E hE hlen h1 h3
    apply refuses_of_card seed payload hE
    by_cases htwo : E.card = 2
    · exact .inr ⟨htwo, hlen⟩
    · exact .inl (Nat.odd_iff.2 (by omega))
  · intro seed payload id revision h
    have hle := Catalog.expectedSize_le h
    simp only [stampWith, List.length_append, Bytes.length_ofWord]
    omega

/-- Two bits of a record of five bytes, one in the payload and one in the trailer. -/
theorem odd_flips_and_pairs_refused_five_bytes :
    (stampWith 0xffff [0x12, 0x34, 0x56]).length ≤ 4095 ∧
    Refuses 0xffff ((stampWith 0xffff [0x12, 0x34, 0x56]).flip {3, 38}) ∧
    Refuses 0xffff ((stampWith 0xffff [0x12, 0x34, 0x56]).flip {0, 21, 39}) ∧
    (stampWith 0 (List.replicate 45 0)).length ≤ 4095 :=
  ⟨by decide,
   odd_flips_and_pairs_refused.1 _ _ _ (by decide) (.inr ⟨by decide, by decide⟩),
   odd_flips_and_pairs_refused.2.1 _ _ _ (by decide) (by decide) (by decide) (by decide),
   odd_flips_and_pairs_refused.2.2 0 (List.replicate 45 0) TableId.install .mtr1 rfl⟩

/-- **Bursts.** A stamped record of any length is refused when some of its bits are flipped that all lie within
sixteen consecutive positions, wherever these begin. -/
theorem bursts_refused (seed : UInt16) (payload : Bytes) (E : Finset Nat) (p : Nat) (hE : E.Nonempty)
    (hn : ∀ q ∈ E, q < 8 * (stampWith seed payload).length) (hp : ∀ q ∈ E, p ≤ q ∧ q < p + 16) :
    Refuses seed ((stampWith seed payload).flip E) := by
  rw [refuses_flip_iff seed payload hn, syndrome_burst hn hp, ne_eq, iterate_shift_eq_zero_iff]
  exact window_ne_zero hE hp

/-- A burst from the last byte of the payload into the trailer. -/
theorem bursts_refused_across_trailer :
    (({19, 24, 30, 34} : Finset Nat)).Nonempty ∧
    (∀ q ∈ ({19, 24, 30, 34} : Finset Nat), q < 8 * (stampWith 7 [0x12, 0x34, 0x56]).length) ∧
    (∀ q ∈ ({19, 24, 30, 34} : Finset Nat), 19 ≤ q ∧ q < 19 + 16) ∧
    Refuses 7 ((stampWith 7 [0x12, 0x34, 0x56]).flip {19, 24, 30, 34}) :=
  ⟨by decide, by decide, by decide, bursts_refused _ _ _ 19 (by decide) (by decide) (by decide)⟩

end Payphone.Checksum
