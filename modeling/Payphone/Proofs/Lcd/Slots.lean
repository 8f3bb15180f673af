import Payphone.Proofs.Bits
import Payphone.Proofs.Lcd.Editing

/-!
The class of one exchange in the payload.

A class has as many bits as its packing gives it (`width`), and the first class of a byte has the highest of them
(`lowBit`). This file shows that

1. writing a class at its place changes the bits of the place and no others (`testBit_set`);
2. packing classes of which one was replaced is writing that one over the packed data (`pack?_set`);
3. so a class that is set changes its own bits of the payload (`getElem?_bits_setClass`), and two exchanges do not
   disturb each other (`setClass_comm`).
-/
namespace Payphone.Lcd

namespace Packing

/-- The number of bits of a class. -/
def width : Packing → Nat
  | uncompressed => 8
  | compressed => 4
  | doubleCompressed => 2

/-- The lowest bit of class `i` in its byte. -/
def lowBit (p : Packing) (i : Nat) : Nat := 8 - p.width * (i % p.perByte + 1)

example : (List.range 4).map doubleCompressed.lowBit = [6, 4, 2, 0] := by decide

theorem perByte_mul_width (p : Packing) : p.perByte * p.width = 8 := by cases p <;> rfl

theorem width_pos (p : Packing) : 0 < p.width := by cases p <;> decide

theorem mul_width_div (p : Packing) (i : Nat) : i * p.width / 8 = i / p.perByte := by
  rw [← perByte_mul_width p, Nat.mul_div_mul_right _ _ (width_pos p)]

theorem lowBit_mod (p : Packing) (i : Nat) : p.lowBit (i % p.perByte) = p.lowBit i := by
  rw [lowBit, lowBit, Nat.mod_mod]

/-! The bits of a place. -/

theorem testBit_mask : ∀ p ∈ all, ∀ r < p.perByte, ∀ b < 8,
    (p.locate r).mask.toNat.testBit b = decide (p.lowBit r ≤ b ∧ b < p.lowBit r + p.width) := by
  decide +kernel

theorem toNat_shift : ∀ p ∈ all, ∀ r < p.perByte, (p.locate r).shift.toNat = p.lowBit r ∧ p.lowBit r < 8 := by
  decide +kernel

variable {p : Packing}

/-- Writing a class changes the bits of its place only. -/
theorem testBit_set {r : Nat} (hr : r < p.perByte) (x rate : UInt8) {b : Nat} (hb : b < 8) :
    ((p.locate r).set x rate).toNat.testBit b =
      if p.lowBit r ≤ b ∧ b < p.lowBit r + p.width then rate.toNat.testBit (b - p.lowBit r)
      else x.toNat.testBit b := by
  have hmask := testBit_mask p (mem_all p) r hr b hb
  obtain ⟨hshift, hlow⟩ := toNat_shift p (mem_all p) r hr
  rw [Place.set, UInt8.toNat_or, UInt8.toNat_and, UInt8.toNat_and, Nat.testBit_or, Nat.testBit_and, Nat.testBit_and,
    Bytes.testBit_not _ hb, hmask]
  by_cases inside : p.lowBit r ≤ b ∧ b < p.lowBit r + p.width
  · rw [if_pos inside, decide_eq_true inside, Bytes.testBit_shiftLeft _ _ (by omega) hb (by omega), hshift]
    simp
  · rw [if_neg inside, decide_eq_false inside]
    simp

/-- Packing with another class is packing, and then writing that class. -/
theorem pack?_set {n i : Nat} {classes : List UInt8} (room : classes.length ≤ n * p.perByte)
    (hi : i < classes.length) {data : Bytes} (h : p.pack? n classes = some data) (rate : UInt8) :
    p.pack? n (classes.set i rate) = p.setClass? data i rate := by
  obtain ⟨packed, hpack, hlen, hclass⟩ := pack?_spec room
  obtain rfl : packed = data := Option.some.inj (hpack.symm.trans h)
  have room' : (classes.set i rate).length ≤ n * p.perByte := by rwa [List.length_set]
  obtain ⟨edited, hedited, hlen', hclass'⟩ := pack?_spec room'
  have inside : i < packed.length * p.perByte := by
    rw [hlen]
    exact Nat.lt_of_lt_of_le hi room
  obtain ⟨written, hwritten, hkeep, hwrite⟩ := setClass?_spec inside rate
  rw [hedited, hwritten]
  congr 1
  -- both have the same class in every place
  apply eq_of_class? (p := p) (by omega)
  intro j hj
  rw [hlen'] at hj
  rw [hclass' j hj, hwrite j, hclass j hj, List.getElem?_set]
  by_cases hij : i = j
  · rw [if_pos hij, if_pos hi, if_pos hij.symm, Option.map_some, Option.getD_some]
  · rw [if_neg hij, if_neg fun h => hij h.symm]

end Packing

namespace Table

/-! What setting a class answers. -/

variable {t u w : Table} {nxx m : Nat} {rate other : UInt8}

theorem setClass_eq (t : Table) (nxx : Nat) (rate : UInt8) :
    t.setClass nxx rate =
      if rate > t.packing.maxClass then
        .error (.invalidField "rate class" s!"{Text.decimal rate.toNat} does not fit {t.packing.name}")
      else if nxx < firstExchange ∨ lastExchange < nxx then
        .error (.invalidField "NXX"
          s!"{Text.decimal nxx} outside {Text.decimal firstExchange}-{Text.decimal lastExchange}")
      else .ok { t with classes := t.classes.setIfInBounds (nxx - firstExchange) rate } := by
  rw [setClass, run_assignClass]
  by_cases wide : rate > t.packing.maxClass
  · rw [if_pos wide, if_pos wide]
    rfl
  · rw [if_neg wide, if_neg wide]
    by_cases outside : nxx < firstExchange ∨ lastExchange < nxx
    · rw [if_pos outside, if_pos outside]
      rfl
    · rw [if_neg outside, if_neg outside]
      rfl

theorem setClass_eq_ok_iff :
    t.setClass nxx rate = .ok u ↔
      (firstExchange ≤ nxx ∧ nxx ≤ lastExchange) ∧ rate ≤ t.packing.maxClass ∧
        u = { t with classes := t.classes.setIfInBounds (nxx - firstExchange) rate } := by
  rw [setClass_eq]
  by_cases wide : rate > t.packing.maxClass
  · rw [if_pos wide]
    constructor
    · intro h
      cases h
    · rintro ⟨-, narrow, -⟩
      exact absurd wide (UInt8.not_lt.2 narrow)
  · rw [if_neg wide]
    by_cases outside : nxx < firstExchange ∨ lastExchange < nxx
    · rw [if_pos outside]
      constructor
      · intro h
        cases h
      · rintro ⟨inside, -⟩
        omega
    · rw [if_neg outside]
      constructor
      · intro h
        exact ⟨by omega, UInt8.not_lt.1 wide, (Except.ok.inj h).symm⟩
      · rintro ⟨-, -, rfl⟩
        rfl

theorem exists_setClass_iff (t : Table) (nxx : Nat) (rate : UInt8) :
    (∃ u, t.setClass nxx rate = .ok u) ↔
      (firstExchange ≤ nxx ∧ nxx ≤ lastExchange) ∧ rate ≤ t.packing.maxClass := by
  simp only [setClass_eq_ok_iff, exists_and_left, exists_eq, and_true]

theorem classOf?_setClass (h : t.setClass nxx rate = .ok u) (m : Nat) :
    u.classOf? m = if m = nxx then some rate else t.classOf? m := by
  obtain ⟨⟨hlow, hhigh⟩, -, rfl⟩ := setClass_eq_ok_iff.1 h
  have count : exchangeCount = lastExchange - firstExchange + 1 := rfl
  unfold classOf?
  by_cases same : m = nxx
  · subst same
    rw [if_neg (by omega), if_pos rfl, Vector.getElem?_setIfInBounds, if_pos rfl, if_pos (by omega)]
  · rw [if_neg same]
    by_cases low : m < firstExchange
    · rw [if_pos low, if_pos low]
    · rw [if_neg low, if_neg low, Vector.getElem?_setIfInBounds, if_neg (by omega)]

/-- A class that is set in place is one edit of a table that can be reached. -/
theorem Reachable.setClass (h : Reachable t) (hu : t.setClass nxx rate = .ok u) : Reachable u := by
  have reached := h.assignClass nxx rate
  obtain ⟨⟨hlow, hhigh⟩, narrow, rfl⟩ := setClass_eq_ok_iff.1 hu
  rwa [run_assignClass, if_neg (UInt8.not_lt.2 narrow), if_neg (by omega)] at reached

/-! The payload. -/

/-- A class that is set is written over its byte of the payload. -/
theorem encode_setClass (h : t.setClass nxx rate = .ok u) :
    ∃ x, t.encode[headerLength + (nxx - firstExchange) / t.packing.perByte]? = some x ∧
      u.encode = t.encode.set (headerLength + (nxx - firstExchange) / t.packing.perByte)
        ((t.packing.locate ((nxx - firstExchange) % t.packing.perByte)).set x rate) := by
  obtain ⟨⟨hlow, hhigh⟩, -, rfl⟩ := setClass_eq_ok_iff.1 h
  obtain ⟨packed, hpack, hlen, -, hencode⟩ := t.encode_eq
  have header : (AreaCode.encode t.npa).length = headerLength := rfl
  have count : exchangeCount = lastExchange - firstExchange + 1 := rfl
  have inside : nxx - firstExchange < t.classes.toList.length := by
    rw [Vector.length_toList]
    omega
  have room : t.classes.toList.length ≤ exchangeCount / t.packing.perByte * t.packing.perByte := by
    rw [Vector.length_toList]
    exact exchangeCount_le t.packing
  have hbyte : (nxx - firstExchange) / t.packing.perByte < packed.length := by
    rw [hlen]
    apply Nat.div_lt_of_lt_mul
    rw [Nat.mul_comm, ← classes_fill]
    omega
  refine ⟨packed[(nxx - firstExchange) / t.packing.perByte], ?_, ?_⟩
  · rw [hencode, ← header, List.getElem?_append_right (Nat.le_add_right _ _), Nat.add_sub_cancel_left,
      List.getElem?_eq_getElem hbyte]
  · rw [encode, Vector.toList_setIfInBounds, Packing.pack?_set room inside hpack, Packing.setClass?_eq,
      List.getElem?_eq_getElem hbyte, Option.map_some, Option.getD_some, hencode, ← header,
      List.set_append_right _ _ (Nat.le_add_right _ _), Nat.add_sub_cancel_left]

/-- Bit by bit: the payload has the bits of the class in its place, and is as it was elsewhere. -/
theorem getElem?_bits_setClass (h : t.setClass nxx rate = .ok u) (q : Nat) :
    (Bytes.bits u.encode)[q]? =
      if q / 8 = headerLength + (nxx - firstExchange) * t.packing.width / 8 ∧
          t.packing.lowBit (nxx - firstExchange) ≤ q % 8 ∧
          q % 8 < t.packing.lowBit (nxx - firstExchange) + t.packing.width then
        some (rate.toNat.testBit (q % 8 - t.packing.lowBit (nxx - firstExchange)))
      else (Bytes.bits t.encode)[q]? := by
  obtain ⟨x, hx, hencode⟩ := encode_setClass h
  have place : (nxx - firstExchange) % t.packing.perByte < t.packing.perByte :=
    Nat.mod_lt _ t.packing.perByte_pos
  have bit := Packing.testBit_set place x rate (Nat.mod_lt q (by decide : 0 < 8))
  rw [Packing.lowBit_mod] at bit
  rw [Packing.mul_width_div, Bytes.getElem?_bits, Bytes.getElem?_bits, hencode, List.getElem?_set]
  by_cases byte : q / 8 = headerLength + (nxx - firstExchange) / t.packing.perByte
  · rw [← byte] at hx ⊢
    rw [if_pos rfl, if_pos (List.getElem?_eq_some_iff.1 hx).1, hx, Option.map_some, Option.map_some, bit]
    simp only [true_and]
    split <;> rfl
  · rw [if_neg fun same => byte same.symm, if_neg fun inside => byte inside.1]

/-! Two edits. -/

/-- Edits of two exchanges come to the same in either order. -/
theorem setClass_comm (apart : m ≠ nxx) (hu : t.setClass nxx rate = .ok u) (hw : u.setClass m other = .ok w) :
    ∃ v, t.setClass m other = .ok v ∧ v.setClass nxx rate = .ok w := by
  obtain ⟨⟨hlow, hhigh⟩, hfit, rfl⟩ := setClass_eq_ok_iff.1 hu
  obtain ⟨⟨hlow', hhigh'⟩, hfit', rfl⟩ := setClass_eq_ok_iff.1 hw
  have places : nxx - firstExchange ≠ m - firstExchange := by omega
  have swap : (t.classes.setIfInBounds (nxx - firstExchange) rate).setIfInBounds (m - firstExchange) other =
      (t.classes.setIfInBounds (m - firstExchange) other).setIfInBounds (nxx - firstExchange) rate := by
    rw [← Vector.toList_inj]
    simp only [Vector.toList_setIfInBounds]
    exact List.set_comm _ _ places
  -- neither edit changes what the other one checks
  refine ⟨_, setClass_eq_ok_iff.2 ⟨⟨hlow', hhigh'⟩, hfit', rfl⟩, ?_⟩
  exact setClass_eq_ok_iff.2 ⟨⟨hlow, hhigh⟩, hfit, by rw [swap]⟩

/-- Of two edits of one exchange the later one stands. -/
theorem setClass_setClass (h : t.setClass nxx rate = .ok u) : u.setClass nxx other = t.setClass nxx other := by
  obtain ⟨-, -, rfl⟩ := setClass_eq_ok_iff.1 h
  rw [setClass_eq, setClass_eq t, Vector.setIfInBounds_setIfInBounds]

/-- **A class that is set changes its own bits of the payload and nothing else.** Setting succeeds exactly for the 800
exchanges and the classes that the packing has room for. Then the exchange has the class and every other exchange the
one it had; in the payload the bits of the class stand in the place of the exchange, the first exchange of a byte in
the highest bits, and all other bits are as they were. Edits of two exchanges come to the same in either order, and of
two edits of one exchange the later one stands. -/
theorem class_edits_stay_in_place (t : Table) (nxx : Nat) (rate : UInt8) :
    ((∃ u, t.setClass nxx rate = .ok u) ↔ (200 ≤ nxx ∧ nxx ≤ 999) ∧ rate ≤ t.packing.maxClass) ∧
    (∀ u, t.setClass nxx rate = .ok u →
      u.classOf? nxx = some rate ∧ (∀ m, m ≠ nxx → u.classOf? m = t.classOf? m) ∧
      ∀ q, (Bytes.bits u.encode)[q]? =
        if q / 8 = 2 + (nxx - 200) * t.packing.width / 8 ∧
            t.packing.lowBit (nxx - 200) ≤ q % 8 ∧ q % 8 < t.packing.lowBit (nxx - 200) + t.packing.width then
          some (rate.toNat.testBit (q % 8 - t.packing.lowBit (nxx - 200)))
        else (Bytes.bits t.encode)[q]?) ∧
    (∀ m other u w, m ≠ nxx → t.setClass nxx rate = .ok u → u.setClass m other = .ok w →
      ∃ v, t.setClass m other = .ok v ∧ v.setClass nxx rate = .ok w) ∧
    ∀ other u, t.setClass nxx rate = .ok u → u.setClass nxx other = t.setClass nxx other := by
  refine ⟨exists_setClass_iff t nxx rate, ?_, ?_, ?_⟩
  · intro u h
    refine ⟨?_, ?_, getElem?_bits_setClass h⟩
    · rw [classOf?_setClass h, if_pos rfl]
    · intro m other
      rw [classOf?_setClass h, if_neg other]
  · intro m other u w apart first second
    exact setClass_comm apart first second
  · intro other u h
    exact setClass_setClass h

/-- The second of four exchanges that share a byte, whose other places are in use, and then the first of them. -/
theorem class_edits_stay_in_place_shared_byte :
    let t : Table := ⟨0x89, 408, .doubleCompressed, Vector.replicate exchangeCount 1⟩
    ∃ u w, t.setClass 553 2 = .ok u ∧ u.setClass 552 3 = .ok w ∧
      u.classOf? 553 = some 2 ∧ u.classOf? 552 = t.classOf? 552 ∧
      (Bytes.bits u.encode)[8 * 90 + 5]? = some true ∧ (Bytes.bits u.encode)[8 * 90 + 4]? = some false ∧
      (Bytes.bits u.encode)[8 * 90 + 6]? = (Bytes.bits t.encode)[8 * 90 + 6]? ∧
      (∃ v, t.setClass 552 3 = .ok v ∧ v.setClass 553 2 = .ok w) ∧ u.setClass 553 1 = t.setClass 553 1 := by
  intro t
  obtain ⟨accepts, edited, swapped, replaced⟩ := class_edits_stay_in_place t 553 2
  obtain ⟨u, hu⟩ := accepts.2 (by decide)
  have packing : u.packing = .doubleCompressed := by
    obtain ⟨-, -, rfl⟩ := setClass_eq_ok_iff.1 hu
    rfl
  have fits : (3 : UInt8) ≤ u.packing.maxClass := by
    rw [packing]
    decide
  obtain ⟨w, hw⟩ := (class_edits_stay_in_place u 552 3).1.2 ⟨by decide, fits⟩
  obtain ⟨own, others, bits⟩ := edited u hu
  have high : (Bytes.bits u.encode)[8 * 90 + 5]? = some true := by
    rw [bits (8 * 90 + 5), if_pos (by decide)]
    decide
  have low : (Bytes.bits u.encode)[8 * 90 + 4]? = some false := by
    rw [bits (8 * 90 + 4), if_pos (by decide)]
    decide
  have beside : (Bytes.bits u.encode)[8 * 90 + 6]? = (Bytes.bits t.encode)[8 * 90 + 6]? := by
    rw [bits (8 * 90 + 6), if_neg (by decide)]
  exact ⟨u, w, hu, hw, own, others 552 (by decide), high, low, beside, swapped 552 3 u w (by decide) hu hw,
    replaced 1 u hu⟩

end Table

end Payphone.Lcd
