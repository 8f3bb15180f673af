import Mathlib.Tactic.Basic
import Payphone.Lcd.AreaCode

/-!
Headers: exactly those that name an area code are read (`decode_spec`), and an area code and its header name each
other (`decode_encode`).
-/
namespace Payphone.Lcd.AreaCode

/-- Three decimal digits in half-bytes, the first at least two, and the end mark. -/
def IsHeader (header : Bytes) : Prop :=
  ∃ d0 d1 d2, 2 ≤ d0 ∧ d0 ≤ 9 ∧ d1 ≤ 9 ∧ d2 ≤ 9 ∧
    header = [UInt8.ofNat (16 * d0 + d1), UInt8.ofNat (16 * d2 + 0xe)]

/-- The digits in front of the first end mark are three decimal ones exactly if all half-bytes before the last are
decimal. -/
theorem ofDigits?_takeWhile (a b c : Nat) :
    ofDigits? ([a, b, c, PackedNumber.terminator].takeWhile (· != PackedNumber.terminator)) =
      if a < 10 ∧ b < 10 ∧ c < 10 then some (100 * a + 10 * b + c) else none := by
  by_cases ha : a = 14
  · simp [PackedNumber.terminator, ha, ofDigits?]
  by_cases hb : b = 14
  · simp [PackedNumber.terminator, ha, hb, ofDigits?]
  by_cases hc : c = 14
  · simp [PackedNumber.terminator, ha, hb, hc, ofDigits?]
  · simp [PackedNumber.terminator, ha, hb, hc, ofDigits?]

theorem ofNat_toNat_of_eq {x : UInt8} {n : Nat} (h : x.toNat = n) : x = UInt8.ofNat n := by
  rw [← h, UInt8.ofNat_toNat]

theorem isHeader_iff (first second : UInt8) :
    IsHeader [first, second] ↔
      32 ≤ first.toNat ∧ first.toNat ≤ 153 ∧ first.toNat % 16 < 10 ∧ second.toNat / 16 < 10 ∧
        second.toNat % 16 = 14 := by
  constructor
  · rintro ⟨d0, d1, d2, hlow, h0, h1, h2, heq⟩
    injection heq with hfirst hrest
    injection hrest with hsecond
    have hf : first.toNat = 16 * d0 + d1 := by
      rw [hfirst, UInt8.toNat_ofNat', Nat.mod_eq_of_lt (by omega)]
    have hs : second.toNat = 16 * d2 + 14 := by
      rw [hsecond, UInt8.toNat_ofNat', Nat.mod_eq_of_lt (by omega)]
    omega
  · rintro ⟨hlow, hhigh, h1, h2, hmark⟩
    refine ⟨first.toNat / 16, first.toNat % 16, second.toNat / 16, by omega, by omega, by omega, by omega, ?_⟩
    rw [← ofNat_toNat_of_eq (x := first) (by omega), ← ofNat_toNat_of_eq (x := second) (by omega)]

theorem encode_digits {first second : UInt8} (h0 : first.toNat / 16 < 10) (h1 : first.toNat % 16 < 10)
    (h2 : second.toNat / 16 < 10) (hmark : second.toNat % 16 = 14) :
    encode (100 * (first.toNat / 16) + 10 * (first.toNat % 16) + second.toNat / 16) = [first, second] := by
  have hterm : areaCodeMark = 14 := rfl
  rw [encode, ← ofNat_toNat_of_eq (x := first) (by omega), ← ofNat_toNat_of_eq (x := second) (by omega)]

/-- What the two bytes are read as, once the first byte and the end mark are accepted. -/
theorem decode_of_mark {first second : UInt8} (hlow : 32 ≤ first.toNat) (hhigh : first.toNat ≤ 153)
    (hmark : second.toNat % 16 = 14) :
    (first.toNat % 16 < 10 ∧ second.toNat / 16 < 10 → decode first second =
      .ok (100 * (first.toNat / 16) + 10 * (first.toNat % 16) + second.toNat / 16)) ∧
    (¬ (first.toNat % 16 < 10 ∧ second.toNat / 16 < 10) →
      ∃ reason, decode first second = .error (invalid reason)) := by
  have hrange : ¬ (first < 0x20 ∨ 0x99 < first) := by
    rw [UInt8.lt_iff_toNat_lt, UInt8.lt_iff_toNat_lt]
    exact fun h => h.elim (fun h => absurd hlow (Nat.not_le.2 h)) fun h => absurd hhigh (Nat.not_le.2 h)
  have digits : PackedNumber.nibbles [first, second] =
      [first.toNat / 16, first.toNat % 16, second.toNat / 16, PackedNumber.terminator] := by
    simp [PackedNumber.nibbles, hmark, PackedNumber.terminator]
  have marked : ¬ second.toNat % 16 ≠ areaCodeMark := not_not_intro hmark
  unfold decode
  rw [if_neg hrange, if_neg marked, digits, ofDigits?_takeWhile]
  constructor
  · rintro ⟨h1, h2⟩
    rw [if_pos ⟨by omega, h1, h2⟩]
  · intro hdec
    rw [if_neg fun h => hdec h.2]
    exact ⟨_, rfl⟩

/-- A header is read exactly if it is one, and its area code is written as it was. -/
theorem decode_spec (first second : UInt8) :
    (IsHeader [first, second] ∧ ∃ npa, decode first second = .ok npa ∧ encode npa = [first, second]) ∨
    (¬ IsHeader [first, second] ∧ ∃ reason, decode first second = .error (invalid reason)) := by
  have low : first < 0x20 ↔ first.toNat < 32 := UInt8.lt_iff_toNat_lt
  have high : 0x99 < first ↔ 153 < first.toNat := UInt8.lt_iff_toNat_lt
  rw [isHeader_iff]
  by_cases hrange : first < 0x20 ∨ 0x99 < first
  · refine .inr ⟨?_, _, if_pos hrange⟩
    rw [low, high] at hrange
    omega
  · by_cases hmark : second.toNat % 16 = 14
    · rw [low, high] at hrange
      have hlow : 32 ≤ first.toNat := by omega
      have hhigh : first.toNat ≤ 153 := by omega
      obtain ⟨read, refuse⟩ := decode_of_mark hlow hhigh hmark
      by_cases hdec : first.toNat % 16 < 10 ∧ second.toNat / 16 < 10
      · exact .inl ⟨by omega, _, read hdec, encode_digits (by omega) hdec.1 hdec.2 hmark⟩
      · exact .inr ⟨by omega, refuse hdec⟩
    · refine .inr ⟨fun h => hmark h.2.2.2.2, ?_⟩
      have unmarked : second.toNat % 16 ≠ areaCodeMark := hmark
      unfold decode
      rw [if_neg hrange, if_pos unmarked]
      exact ⟨_, rfl⟩

/-- The header of an area code is read as that area code. -/
theorem decode_encode {npa : Nat} (h : IsAreaCode npa) :
    ∃ first second, encode npa = [first, second] ∧ decode first second = .ok npa := by
  obtain ⟨hlow, hhigh⟩ := h
  refine ⟨_, _, rfl, ?_⟩
  have hhundreds : npa / 100 % 10 = npa / 100 := Nat.mod_eq_of_lt (by omega)
  have htens : npa / 10 / 10 = npa / 100 := Nat.div_div_eq_div_mul npa 10 10
  have hterm : areaCodeMark = 14 := rfl
  have hfirst : (UInt8.ofNat (16 * (npa / 100 % 10) + npa / 10 % 10)).toNat =
      16 * (npa / 100 % 10) + npa / 10 % 10 := by
    rw [UInt8.toNat_ofNat', Nat.mod_eq_of_lt (by omega)]
  have hsecond : (UInt8.ofNat (16 * (npa % 10) + areaCodeMark)).toNat = 16 * (npa % 10) + 14 := by
    rw [UInt8.toNat_ofNat', Nat.mod_eq_of_lt (by omega), hterm]
  rw [(decode_of_mark (by omega) (by omega) (by omega)).1 (by omega), hfirst, hsecond]
  congr 1
  omega

/-- A header has the last three digits of a number. -/
theorem encode_mod (npa : Nat) : encode (npa % 1000) = encode npa := by
  have hundreds : npa % 1000 / 100 % 10 = npa / 100 % 10 := by omega
  have tens : npa % 1000 / 10 % 10 = npa / 10 % 10 := by omega
  have ones : npa % 1000 % 10 = npa % 10 := by omega
  rw [encode, encode, hundreds, tens, ones]

/-- A header whose first digit is too small is refused for its first byte. -/
theorem decode_encode_of_low {npa : Nat} (low : npa % 1000 < 200) :
    ∃ first second, encode npa = [first, second] ∧
      decode first second = .error (invalid s!"first byte 0x{Text.hexByte first} outside 200-999") := by
  refine ⟨_, _, rfl, ?_⟩
  have small : 16 * (npa / 100 % 10) + npa / 10 % 10 < 32 := by omega
  rw [decode, if_pos]
  left
  rw [UInt8.lt_iff_toNat_lt, UInt8.toNat_ofNat', Nat.mod_eq_of_lt (by omega)]
  exact small

/-- What is read from a header is an area code. -/
theorem isAreaCode_of_decode {first second : UInt8} {npa : Nat} (h : decode first second = .ok npa) :
    IsAreaCode npa := by
  rcases decode_spec first second with ⟨header, -⟩ | ⟨-, reason, hreason⟩
  · obtain ⟨hlow, hhigh, h1, h2, hmark⟩ := (isHeader_iff first second).1 header
    rw [(decode_of_mark hlow hhigh hmark).1 ⟨h1, h2⟩] at h
    obtain rfl := Except.ok.inj h
    exact ⟨by omega, by omega⟩
  · rw [hreason] at h
    cases h

end Payphone.Lcd.AreaCode
