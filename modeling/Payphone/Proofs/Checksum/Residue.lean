import Mathlib.Logic.ExistsUnique
import Payphone.Proofs.Checksum.Register

/-!
What a trailer says about the register.

Nothing is lost while data goes through the register, neither a step nor a byte of it (`absorb_injective`), so data
takes two seeds to two checksums (`crc16_injective`). This file concludes that

1. a record of two bytes or more is valid exactly if it leaves zero in the register, and exactly if it is its payload
   with the stamp (`isValid_split_iff_eq_stampWith`);
2. one trailer is accepted behind each payload, and no other one is (`accepts_append_iff`);
3. a stamp made from one seed is valid from no other (`isValid_split_stampWith_iff`).
-/
namespace Payphone.Checksum

open Function

/-! Seeds. -/

theorem absorb_injective (x : UInt8) : Injective fun register => absorb register x := by
  intro a b h
  simp only [absorb, repeat_shift] at h
  exact (UInt16.xor_left_inj _).1 (iterate_shift_injective 8 h)

/-- Data takes two seeds to two checksums. -/
theorem crc16_injective (data : Bytes) : Injective fun seed => crc16 seed data := by
  induction data with
  | nil =>
    intro a b h
    exact h
  | cons x data ih =>
    intro a b h
    apply absorb_injective x
    apply ih
    exact h

/-! Valid records. -/

theorem two_le_length_append (payload : Bytes) {trailer : Bytes} (h : trailer.length = 2) :
    2 ≤ (payload ++ trailer).length := by
  rw [List.length_append]
  omega

theorem isValid_append_iff (seed : UInt16) (payload : Bytes) {trailer : Bytes} (h : trailer.length = 2) :
    (split seed (payload ++ trailer)).isValid = true ↔ trailer = Bytes.ofWord (crc16 seed payload) := by
  rw [isValid_split_iff seed (two_le_length_append payload h), ← Bytes.ofWord_word h, crc16_append_ofWord_eq_zero_iff]
  constructor
  · intro same
    rw [same]
  · intro same
    rw [← Bytes.word_ofWord (crc16 seed payload), ← same, Bytes.word_ofWord]

/-- The checksum of a payload is the one trailer behind it that is accepted. -/
theorem accepts_append_iff (seed : UInt16) (payload : Bytes) {trailer : Bytes} (h : trailer.length = 2) :
    (∃ s, (unstampWith seed (payload ++ trailer)).result = .ok s ∧ s.isValid = true) ↔
      trailer = Bytes.ofWord (crc16 seed payload) := by
  rw [← isValid_append_iff seed payload h, result_unstampWith seed (two_le_length_append payload h)]
  constructor
  · rintro ⟨s, hs, valid⟩
    rwa [Except.ok.inj hs]
  · intro valid
    exact ⟨_, rfl, valid⟩

/-- A record is valid exactly if it is its payload with the stamp. -/
theorem isValid_split_iff_eq_stampWith (seed : UInt16) {record : Bytes} (h : 2 ≤ record.length) :
    (split seed record).isValid = true ↔ record = stampWith seed (split seed record).payload := by
  obtain ⟨payload, w, rfl⟩ := exists_trailer h
  rw [isValid_append_iff seed payload (Bytes.length_ofWord w), split_append_ofWord, stampWith,
    List.append_cancel_left_eq]

/-- A stamp is valid from the seed that it was made from, and from no other. -/
theorem isValid_split_stampWith_iff (a b : UInt16) (payload : Bytes) :
    (split b (stampWith a payload)).isValid = true ↔ a = b := by
  rw [stampWith, split_append_ofWord]
  simp only [Stamped.isValid, beq_iff_eq]
  exact (crc16_injective payload).eq_iff

theorem result_unstampWith_of_short (seed : UInt16) {record : Bytes} (h : record.length < 2) :
    (unstampWith seed record).result = .error (.bufferTooSmall 2 record.length) := by
  have short : record.length < trailerLength := h
  rw [unstampWith, if_pos short]
  rfl

theorem result_unstampWith_stampWith (a b : UInt16) (payload : Bytes) :
    (unstampWith b (stampWith a payload)).result = .ok ⟨payload, crc16 a payload, crc16 b payload⟩ := by
  rw [result_unstampWith b (two_le_length_stampWith a payload), stampWith, split_append_ofWord]

/-- **A record is valid exactly if nothing is left in the register.** The trailer comes off every record that is long
enough for one, and then three things are the same: that the record is valid, that the checksum over all of it, trailer
included, is zero, and that it is the stamped payload. So what was stamped is valid, no payload has a second valid
trailer, and a record stamped from another seed is never valid. -/
theorem zero_residue_decides :
    (∀ (seed : UInt16) (record : Bytes), 2 ≤ record.length →
      ∃ s, (unstampWith seed record).result = .ok s ∧ s.payload = record.take (record.length - 2) ∧
        (s.isValid = true ↔ crc16 seed record = 0) ∧
        (s.isValid = true ↔ record = stampWith seed s.payload)) ∧
    (∀ (seed : UInt16) (payload : Bytes),
      ∃ s, (unstampWith seed (stampWith seed payload)).result = .ok s ∧ s.payload = payload ∧ s.isValid = true) ∧
    (∀ (seed : UInt16) (payload : Bytes), ∃! trailer : Bytes, trailer.length = 2 ∧
      ∃ s, (unstampWith seed (payload ++ trailer)).result = .ok s ∧ s.isValid = true) ∧
    (∀ (a b : UInt16) (payload : Bytes), a ≠ b →
      ∃ s, (unstampWith b (stampWith a payload)).result = .ok s ∧ s.isValid = false) ∧
    ∀ (seed : UInt16) (record : Bytes), record.length < 2 →
      (unstampWith seed record).result = .error (.bufferTooSmall 2 record.length) := by
  refine ⟨?_, ?_, ?_, ?_, fun seed record => result_unstampWith_of_short seed⟩
  · intro seed record long
    exact ⟨split seed record, result_unstampWith seed long, rfl, isValid_split_iff seed long,
      isValid_split_iff_eq_stampWith seed long⟩
  · intro seed payload
    exact ⟨_, result_unstampWith_stampWith seed seed payload, rfl, beq_self_eq_true _⟩
  · intro seed payload
    refine ⟨Bytes.ofWord (crc16 seed payload), ⟨rfl, (accepts_append_iff seed payload rfl).2 rfl⟩, ?_⟩
    rintro trailer ⟨size, accepted⟩
    exact (accepts_append_iff seed payload size).1 accepted
  · intro a b payload differ
    refine ⟨_, result_unstampWith b (two_le_length_stampWith a payload), ?_⟩
    rw [← Bool.not_eq_true, isValid_split_stampWith_iff]
    exact differ

/-- A header with the trailer made from one seed, the same record from another seed, and a byte that is too short for
a trailer. -/
theorem zero_residue_decides_header :
    let payload : Bytes := [0x40, 0x8e]
    let record : Bytes := payload ++ [0xb0, 0x14]
    2 ≤ record.length ∧ (0xffff : UInt16) ≠ 0 ∧ (payload.take 1).length < 2 ∧
    (∃ s, (unstampWith 0xffff record).result = .ok s ∧ s.payload = payload ∧ s.isValid = true ∧
      record = stampWith 0xffff payload) ∧
    (∃ s, (unstampWith 0 (stampWith 0xffff payload)).result = .ok s ∧ s.isValid = false) ∧
    (unstampWith 0 (payload.take 1)).result = .error (.bufferTooSmall 2 1) := by
  intro payload record
  have long : 2 ≤ record.length := by decide
  have differ : (0xffff : UInt16) ≠ 0 := by decide
  have short : (payload.take 1).length < 2 := by decide
  obtain ⟨residue, -, -, seeds, refused⟩ := zero_residue_decides
  obtain ⟨s, hs, taken, zero, stamped⟩ := residue 0xffff record long
  have valid : s.isValid = true := zero.2 (by decide +kernel)
  have whole : s.payload = payload := taken
  exact ⟨long, differ, short, ⟨s, hs, whole, valid, whole ▸ stamped.1 valid⟩, seeds 0xffff 0 payload differ,
    refused 0 (payload.take 1) short⟩

end Payphone.Checksum
