import Payphone.Proofs.Lcd.Editing

/-!
Reading a table whose packing its length tells.

The identifier is checked first, then the length, then the header; behind a header every payload is read to its end.
This file shows that

1. each packing has one payload length, so a length tells a packing or none (`mem_lengths_iff`);
2. the area code that is read is the number that the digits of the header spell (`decode_of_spells`), and so is the one
   that is written (`eq_of_spells`);
3. detection has one of five outcomes, each under its own condition (`Detected`), and so accepts exactly the payloads
   with an identifier, a length and a header of this kind (`detect_decides`);
4. reading in the packing of a revision is detection that finds this packing (`decodeAs_eq_ok_iff`).
-/
namespace Payphone.Lcd

namespace AreaCode

/-- The header is the half-bytes of three decimal digits, the first at least two, and the end mark. -/
def Spells (header : Bytes) (d0 d1 d2 : Nat) : Prop :=
  2 ≤ d0 ∧ d0 ≤ 9 ∧ d1 ≤ 9 ∧ d2 ≤ 9 ∧ header = [UInt8.ofNat (16 * d0 + d1), UInt8.ofNat (16 * d2 + 0xe)]

theorem decode_of_spells {first second : UInt8} {d0 d1 d2 : Nat} (h : Spells [first, second] d0 d1 d2) :
    decode first second = .ok (100 * d0 + 10 * d1 + d2) := by
  obtain ⟨hlow, h0, h1, h2, heq⟩ := h
  injection heq with hfirst hrest
  injection hrest with hsecond
  have hf : first.toNat = 16 * d0 + d1 := by
    rw [hfirst, UInt8.toNat_ofNat', Nat.mod_eq_of_lt (by omega)]
  have hs : second.toNat = 16 * d2 + 14 := by
    rw [hsecond, UInt8.toNat_ofNat', Nat.mod_eq_of_lt (by omega)]
  rw [(decode_of_mark (by omega) (by omega) (by omega)).1 (by omega)]
  congr 1
  omega

/-- An area code that is written as a header is the number that its digits spell. -/
theorem eq_of_spells {npa d0 d1 d2 : Nat} (area : IsAreaCode npa) (h : Spells (encode npa) d0 d1 d2) :
    npa = 100 * d0 + 10 * d1 + d2 := by
  obtain ⟨first, second, hencode, hdecode⟩ := decode_encode area
  rw [hencode] at h
  rw [decode_of_spells h] at hdecode
  exact (Except.ok.inj hdecode).symm

end AreaCode

namespace Table

/-! Lengths. -/

/-- The payload lengths of the three packings. -/
def payloadLengths : List Nat := [802, 402, 202]

theorem mem_lengths_iff (n : Nat) : n ∈ payloadLengths ↔ ∃ packing : Packing, packing.payloadLength = n := by
  constructor
  · intro h
    simp only [payloadLengths, List.mem_cons, List.not_mem_nil, or_false] at h
    rcases h with rfl | rfl | rfl
    · exact ⟨.uncompressed, rfl⟩
    · exact ⟨.compressed, rfl⟩
    · exact ⟨.doubleCompressed, rfl⟩
  · rintro ⟨packing, rfl⟩
    cases packing <;> decide

theorem ofPayloadLength?_of_not_mem {n : Nat} (h : n ∉ payloadLengths) : Packing.ofPayloadLength? n = none := by
  cases hp : Packing.ofPayloadLength? n with
  | none => rfl
  | some packing => exact absurd ((mem_lengths_iff n).2 ⟨packing, by simpa using List.find?_some hp⟩) h

/-! Outcomes. -/

/-- What detection answers, in the order in which it looks: at the identifier, at the length, at the header. -/
inductive Detected (id : UInt8) (payload : Bytes) : Except TableError Table → Prop
  | unknown (unlisted : ¬ Catalog.Lists id) : Detected id payload (.error (.unknownTable id))
  | foreign (listed : Catalog.Lists id) (h : ownsId id = false) :
    Detected id payload (.error (.invalidField "table id" s!"0x{Text.hexByte id} is not an NPA-NXX table"))
  | length (owned : ownsId id = true) (h : payload.length ∉ payloadLengths) :
    Detected id payload (.error (.sizeMismatch id 202 payload.length))
  | header (owned : ownsId id = true) (sized : payload.length ∈ payloadLengths)
    (h : ¬ AreaCode.IsHeader (payload.take headerLength)) (reason : String) :
    Detected id payload (.error (.invalidField "NPA" reason))
  | table (owned : ownsId id = true) (sized : payload.length ∈ payloadLengths)
    (h : AreaCode.IsHeader (payload.take headerLength)) (t : Table) (same : t.encode = payload) (own : t.tableId = id)
    (whole : t.WellFormed) :
    Detected id payload (.ok t)

theorem detected (id : UInt8) (payload : Bytes) : Detected id payload (detect id payload).result := by
  by_cases owned : ownsId id = true
  · by_cases sized : payload.length ∈ payloadLengths
    · obtain ⟨packing, hlen⟩ := (mem_lengths_iff _).1 sized
      obtain ⟨answer, hread, hanswer⟩ := read?_spec id hlen.symm
      have found : Packing.ofPayloadLength? payload.length = some packing := by
        rw [← hlen, Packing.ofPayloadLength?_payloadLength]
      simp only [result_detect owned, found, result_parse hread]
      rcases hanswer with ⟨hheader, t, rfl, hencode, hid, -⟩ | ⟨hheader, reason, rfl⟩
      · exact .table owned sized hheader t hencode hid (wellFormed_of_read? owned hlen.symm hread)
      · exact .header owned sized hheader reason
    · simp only [result_detect owned, ofPayloadLength?_of_not_mem sized]
      exact .length owned sized
  · rw [detect, Attempt.result_bind, Attempt.result_lift, checkId_eq, if_neg owned]
    by_cases listed : Catalog.Lists id
    · rw [if_pos listed]
      exact .foreign listed (by simpa using owned)
    · rw [if_neg listed]
      exact .unknown listed

namespace Detected

variable {id : UInt8} {payload : Bytes} {answer : Except TableError Table}

theorem ok_iff (d : Detected id payload answer) :
    (∃ t, answer = .ok t) ↔
      ownsId id = true ∧ payload.length ∈ payloadLengths ∧ AreaCode.IsHeader (payload.take headerLength) := by
  constructor
  · rintro ⟨t, rfl⟩
    cases d with
    | table owned sized h => exact ⟨owned, sized, h⟩
  · rintro ⟨owned, sized, header⟩
    cases d with
    | table _ _ _ t => exact ⟨t, rfl⟩
    | unknown unlisted => exact absurd (lists_of_ownsId owned) unlisted
    | foreign _ h => simp [h] at owned
    | length _ h => exact absurd sized h
    | header _ _ h => exact absurd header h

/-- The packing of a table that is found is the only one with payloads of that length, and its area code is the
number that the header spells. -/
theorem of_ok (d : Detected id payload answer) {t : Table} (ht : answer = .ok t) :
    (∀ d0 d1 d2, AreaCode.Spells (payload.take headerLength) d0 d1 d2 → t.npa = 100 * d0 + 10 * d1 + d2) ∧
    (∀ packing, packing.payloadLength = payload.length ↔ packing = t.packing) ∧
    t.encode = payload ∧ t.tableId = id := by
  subst ht
  cases d with
  | table owned sized header t same own whole =>
    have front : payload.take headerLength = AreaCode.encode t.npa := by
      rw [← same, encode]
      exact List.take_left' rfl
    have hlen := length_encode t
    rw [same] at hlen
    refine ⟨?_, ?_, same, own⟩
    · intro d0 d1 d2 spells
      rw [front] at spells
      exact AreaCode.eq_of_spells whole.npa spells
    · intro packing
      rw [hlen]
      exact ⟨Packing.payloadLength_injective, fun h => by rw [h]⟩

/-- The first check that fails names the error. -/
theorem of_refused (d : Detected id payload answer) :
    (¬ Catalog.Lists id → answer = .error (.unknownTable id)) ∧
    (Catalog.Lists id → ownsId id = false → ∃ reason, answer = .error (.invalidField "table id" reason)) ∧
    (ownsId id = true → payload.length ∉ payloadLengths →
      answer = .error (.sizeMismatch id 202 payload.length)) ∧
    (ownsId id = true → payload.length ∈ payloadLengths → ¬ AreaCode.IsHeader (payload.take headerLength) →
      ∃ reason, answer = .error (.invalidField "NPA" reason)) := by
  cases d with
  | unknown unlisted =>
    refine ⟨fun _ => rfl, fun listed => absurd listed unlisted, ?_, ?_⟩
    · exact fun owned => absurd (lists_of_ownsId owned) unlisted
    · exact fun owned => absurd (lists_of_ownsId owned) unlisted
  | foreign listed h => simp [listed, h]
  | length owned h => simp [owned, h, lists_of_ownsId owned]
  | header owned sized h reason => simp [owned, sized, lists_of_ownsId owned]
  | table owned sized h => simp [owned, sized, h, lists_of_ownsId owned]

end Detected

/-- In the packing of a revision exactly the tables are read that detection finds in this packing. -/
theorem decodeAs_eq_ok_iff (id : UInt8) (payload : Bytes) (revision : Revision) (t : Table) :
    (decodeAs id payload revision).result = .ok t ↔
      (detect id payload).result = .ok t ∧ t.packing = Packing.ofRevision revision := by
  by_cases owned : ownsId id = true
  · rw [result_decodeAs owned]
    by_cases hlen : payload.length = (Packing.ofRevision revision).payloadLength
    · have found : (detect id payload).result = (parse id payload (Packing.ofRevision revision)).result := by
        rw [result_detect owned, hlen, Packing.ofPayloadLength?_payloadLength]
      rw [if_pos hlen, ← found]
      refine ⟨fun h => ⟨h, ?_⟩, And.left⟩
      obtain ⟨-, same, -⟩ := (detected id payload).of_ok h
      exact ((same _).1 hlen.symm).symm
    · rw [if_neg hlen]
      constructor
      · intro h
        cases h
      · rintro ⟨h, hpacking⟩
        obtain ⟨-, same, -⟩ := (detected id payload).of_ok h
        exact absurd ((same _).2 hpacking.symm).symm hlen
  · constructor
    · exact fun h => absurd (ownsId_of_checked h) owned
    · exact fun h => absurd (ownsId_of_checked h.1) owned

/-- **Detection accepts exactly the payloads of a known length behind a header.** The area code is what the header
spells, the packing the one that has payloads of this length, and the table is written as it was read. Otherwise
the first check that fails names the error: the identifier, then the length, then the header. Reading in the packing
of a revision gives the same tables, those in this packing. -/
theorem detect_decides (id : UInt8) (payload : Bytes) :
    ((∃ t, (detect id payload).result = .ok t) ↔
      (0x88 ≤ id ∧ id ≤ 0x8a) ∧ payload.length ∈ [802, 402, 202] ∧
        ∃ d0 d1 d2, AreaCode.Spells (payload.take 2) d0 d1 d2) ∧
    (∀ t, (detect id payload).result = .ok t →
      (∀ d0 d1 d2, AreaCode.Spells (payload.take 2) d0 d1 d2 → t.npa = 100 * d0 + 10 * d1 + d2) ∧
      (∀ packing, packing.payloadLength = payload.length ↔ packing = t.packing) ∧
      t.encode = payload ∧ t.tableId = id) ∧
    ((¬ Catalog.Lists id → (detect id payload).result = .error (.unknownTable id)) ∧
      (Catalog.Lists id → ¬ (0x88 ≤ id ∧ id ≤ 0x8a) →
        ∃ reason, (detect id payload).result = .error (.invalidField "table id" reason)) ∧
      (0x88 ≤ id ∧ id ≤ 0x8a → payload.length ∉ [802, 402, 202] →
        (detect id payload).result = .error (.sizeMismatch id 202 payload.length)) ∧
      (0x88 ≤ id ∧ id ≤ 0x8a → payload.length ∈ [802, 402, 202] →
        (¬ ∃ d0 d1 d2, AreaCode.Spells (payload.take 2) d0 d1 d2) →
        ∃ reason, (detect id payload).result = .error (.invalidField "NPA" reason))) ∧
    ∀ revision t, (decodeAs id payload revision).result = .ok t ↔
      (detect id payload).result = .ok t ∧ t.packing = Packing.ofRevision revision := by
  have outcome := detected id payload
  have owns : ownsId id = true ↔ 0x88 ≤ id ∧ id ≤ 0x8a := ownsId_iff id
  have foreign : ownsId id = false ↔ ¬ (0x88 ≤ id ∧ id ≤ 0x8a) := by rw [← owns, Bool.not_eq_true]
  obtain ⟨unknown, other, length, header⟩ := outcome.of_refused
  refine ⟨?_, fun _ => outcome.of_ok, ⟨unknown, ?_, ?_, ?_⟩, decodeAs_eq_ok_iff id payload⟩
  · rw [← owns]
    exact outcome.ok_iff
  · rw [← foreign]
    exact other
  · rw [← owns]
    exact length
  · rw [← owns]
    exact header

/-- A header with a letter among its digits, and one of area code 408 in the packing of MTR 1.x. -/
theorem detect_decides_headers :
    let lettered : Bytes := [0x4a, 0x8e] ++ List.replicate 400 0x1b
    let decimal : Bytes := [0x40, 0x8e] ++ List.replicate 400 0x1b
    (∃ reason, (detect 0x8a lettered).result = .error (.invalidField "NPA" reason)) ∧
    ∃ t, (detect 0x8a decimal).result = .ok t ∧ t.npa = 408 ∧ (decodeAs 0x8a decimal .mtr1).result = .ok t := by
  intro lettered decimal
  have owned : (0x88 : UInt8) ≤ 0x8a ∧ (0x8a : UInt8) ≤ 0x8a := by decide
  have sized : 402 ∈ [802, 402, 202] := by decide
  constructor
  · have size : lettered.length = 402 := by rw [List.length_append, List.length_replicate]; rfl
    obtain ⟨-, -, ⟨-, -, -, refused⟩, -⟩ := detect_decides 0x8a lettered
    apply refused owned (by rwa [size])
    intro spelled
    exact absurd ((AreaCode.isHeader_iff 0x4a 0x8e).1 spelled) (by decide)
  · have size : decimal.length = 402 := by rw [List.length_append, List.length_replicate]; rfl
    have spells : AreaCode.Spells [0x40, 0x8e] 4 0 8 := by
      refine ⟨?_, ?_, ?_, ?_, ?_⟩ <;> decide
    obtain ⟨accepts, found, -, revisions⟩ := detect_decides 0x8a decimal
    obtain ⟨t, ht⟩ := accepts.2 ⟨owned, by rwa [size], 4, 0, 8, spells⟩
    obtain ⟨area, packing, -⟩ := found t ht
    have compressed : t.packing = .compressed := ((packing .compressed).1 size.symm).symm
    exact ⟨t, ht, area 4 0 8 spells, (revisions .mtr1 t).2 ⟨ht, compressed⟩⟩

end Table

end Payphone.Lcd
