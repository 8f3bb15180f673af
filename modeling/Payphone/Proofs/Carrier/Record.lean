import Payphone.Proofs.Carrier.Payload

/-!
The records of carrier tables.

A record is a payload behind the tag of the carrier table. Its own tag leaves everything to the payload
(`result_ofRecord_own`); any other tag is refused, and the catalog decides how (`result_ofRecord_of_not_lists`,
`result_ofRecord_of_lists`). So the records that are accepted are those of the tag and a payload of the right length
(`ofRecord_accepts_iff`), and the table read from one is written as this record (`toRecord_of_ofRecord`).
-/
namespace Payphone.Carrier

theorem Entry.encode_blank : Entry.form.encode {} = List.replicate Entry.length 0 := by decide

namespace Table

section

variable {tag : UInt8} (payload : Bytes) (revision : Revision)

theorem result_ofRecord_own :
    (ofRecord (TableId.carrier :: payload) revision).result = (decode payload revision).result := by
  rw [ofRecord, if_pos rfl]

theorem result_ofRecord_of_length {payload : Bytes} (h : payload.length ≠ imageForm.width) (revision : Revision) :
    (ofRecord (TableId.carrier :: payload) revision).result =
      .error (.sizeMismatch TableId.carrier imageForm.width payload.length) := by
  rw [result_ofRecord_own, result_decode, if_neg h]

theorem result_ofRecord_of_not_lists (h : ¬ Catalog.Lists tag) :
    (ofRecord (tag :: payload) revision).result = .error (.unknownTable tag) := by
  have other : tag ≠ TableId.carrier := by
    rintro rfl
    exact h (by decide)
  rw [ofRecord, if_neg other, Attempt.result_bind, Attempt.result_lift, Catalog.lookup_of_not_lists h]
  rfl

theorem result_ofRecord_of_lists (h : Catalog.Lists tag) (other : tag ≠ TableId.carrier) :
    ∃ reason, (ofRecord (tag :: payload) revision).result = .error (.invalidField "tag" reason) := by
  obtain ⟨info, found⟩ := Catalog.lookup_of_lists h
  rw [ofRecord, if_neg other, Attempt.result_bind, Attempt.result_lift, found]
  exact ⟨_, rfl⟩

end

section

variable {record : Bytes} {revision : Revision}

/-- A record that is accepted has the tag and a payload of the right length, which decides the table. -/
theorem parts_of_ofRecord {t : Table} (h : (ofRecord record revision).result = .ok t) :
    ∃ payload, record = TableId.carrier :: payload ∧ payload.length = imageForm.width ∧
      t = ofImage (imageForm.decode payload) := by
  cases record with
  | nil => cases h
  | cons tag payload =>
    by_cases own : tag = TableId.carrier
    · subst own
      rw [result_ofRecord_own, result_decode] at h
      by_cases size : payload.length = imageForm.width
      · rw [if_pos size] at h
        exact ⟨payload, rfl, size, (Except.ok.inj h).symm⟩
      · rw [if_neg size] at h
        cases h
    · by_cases listed : Catalog.Lists tag
      · obtain ⟨reason, refused⟩ := result_ofRecord_of_lists payload revision listed own
        rw [refused] at h
        cases h
      · rw [result_ofRecord_of_not_lists payload revision listed] at h
        cases h

theorem ofRecord_accepts_iff :
    (∃ t, (ofRecord record revision).result = .ok t) ↔
      ∃ payload, record = TableId.carrier :: payload ∧ payload.length = imageForm.width := by
  constructor
  · rintro ⟨t, h⟩
    obtain ⟨payload, parts, size, -⟩ := parts_of_ofRecord h
    exact ⟨payload, parts, size⟩
  · rintro ⟨payload, rfl, size⟩
    refine ⟨ofImage (imageForm.decode payload), ?_⟩
    rw [result_ofRecord_own, result_decode, if_pos size]

theorem toRecord_of_ofRecord {t : Table} (h : (ofRecord record revision).result = .ok t) : t.toRecord = record := by
  obtain ⟨payload, rfl, size, rfl⟩ := parts_of_ofRecord h
  rw [toRecord, encode_decode size]

end

/-- **Payloads and records of carrier tables.** A table with any number of carriers is written as 1102 bytes, from
which the first 33 carriers come back, with entries of zeros behind them if there are fewer. A record is accepted
exactly if it is the tag `0x85` in front of 1102 bytes, and the table in it is written as the same record. Anything
else is refused: a tag that the catalog does not have as an unknown table, the tag of another table as an invalid
field, and an empty record or one of another length for its size. -/
theorem records_decided :
    Entry.form.encode {} = List.replicate 33 0 ∧
    (∀ (t : Table) (revision : Revision),
      t.encode.length = 1102 ∧
      (decode t.encode revision).result =
        .ok ⟨t.defaults, t.carriers.take 33 ++ List.replicate (33 - t.carriers.length) ({} : Entry), t.spare⟩) ∧
    ∀ (record : Bytes) (revision : Revision),
      ((∃ t, (ofRecord record revision).result = .ok t) ↔
        ∃ payload, record = 0x85 :: payload ∧ payload.length = 1102) ∧
      (∀ t, (ofRecord record revision).result = .ok t → t.toRecord = record) ∧
      (record = [] → (ofRecord record revision).result = .error (.sizeMismatch 0x85 1103 0)) ∧
      ∀ tag payload, record = tag :: payload →
        (¬ Catalog.Lists tag → (ofRecord record revision).result = .error (.unknownTable tag)) ∧
        (Catalog.Lists tag → tag ≠ 0x85 →
          ∃ reason, (ofRecord record revision).result = .error (.invalidField "tag" reason)) ∧
        (tag = 0x85 → payload.length ≠ 1102 →
          (ofRecord record revision).result = .error (.sizeMismatch 0x85 1102 payload.length)) := by
  refine ⟨Entry.encode_blank, ?_, ?_⟩
  · intro t revision
    refine ⟨length_encode t, ?_⟩
    rw [result_decode_encode, toList_slots]
    rfl
  · intro record revision
    refine ⟨ofRecord_accepts_iff, fun t h => toRecord_of_ofRecord h, ?_, ?_⟩
    · rintro rfl
      rfl
    · rintro tag payload rfl
      refine ⟨result_ofRecord_of_not_lists payload revision, result_ofRecord_of_lists payload revision, ?_⟩
      rintro rfl size
      exact result_ofRecord_of_length size revision

/-- Two carriers over the slots, the right tag before the right number of bytes and before one only, and two tags of
other tables. -/
theorem records_decided_by_tag :
    let overfull : Table := { carriers := (List.range 35).map fun i => { carrierRef := UInt8.ofNat i } }
    (decode overfull.encode .mtr1).result =
      .ok { overfull with carriers := (List.range 33).map fun i => { carrierRef := UInt8.ofNat i } } ∧
    (∃ t, (ofRecord (0x85 :: List.replicate 1102 7) .mtr2).result = .ok t ∧
      t.toRecord = 0x85 :: List.replicate 1102 7) ∧
    (ofRecord [0x85, 7] .mtr1).result = .error (.sizeMismatch 0x85 1102 1) ∧
    (∃ reason, (ofRecord [TableId.card, 7] .mtr1).result = .error (.invalidField "tag" reason)) ∧
    (ofRecord [0, 7] .mtr2).result = .error (.unknownTable 0) := by
  intro overfull
  obtain ⟨-, tables, records⟩ := records_decided
  refine ⟨(tables overfull .mtr1).2.trans rfl, ?_, ?_, ?_, ?_⟩
  · obtain ⟨accepts, back, -⟩ := records (0x85 :: List.replicate 1102 7) .mtr2
    obtain ⟨t, ok⟩ := accepts.2 ⟨_, rfl, List.length_replicate⟩
    exact ⟨t, ok, back t ok⟩
  · exact ((records [0x85, 7] .mtr1).2.2.2 _ _ rfl).2.2 rfl (by decide)
  · exact ((records [TableId.card, 7] .mtr1).2.2.2 _ _ rfl).2.1 (by decide) (by decide)
  · exact ((records [0, 7] .mtr2).2.2.2 _ _ rfl).1 (by decide)

end Table

end Payphone.Carrier
