import Payphone.Lcd.Table
import Payphone.Proofs.Catalog
import Payphone.Proofs.Lcd.AreaCode
import Payphone.Proofs.Lcd.Packing

/-!
The payload of a table of local call determination.

A payload of the length of its packing is read to its end (`exists_read?`). It is a table exactly if it begins with
a header, and the table written out again is the payload.
-/
namespace Payphone.Lcd.Table

/-! Identifiers. -/

theorem ownsId_iff (id : UInt8) : ownsId id = true ↔ TableId.lcd1 ≤ id ∧ id ≤ TableId.lcd3 := by
  simp [ownsId]

theorem eq_of_ownsId {id : UInt8} (h : ownsId id = true) :
    id = TableId.lcd1 ∨ id = TableId.lcd2 ∨ id = TableId.lcd3 := by
  obtain ⟨hlow, hhigh⟩ := (ownsId_iff id).1 h
  rw [UInt8.le_iff_toNat_le] at hlow hhigh
  simp only [← UInt8.toNat_inj]
  simp only [TableId.lcd1, TableId.lcd2, TableId.lcd3, UInt8.reduceToNat] at *
  omega

theorem expectedSize_of_ownsId {id : UInt8} (h : ownsId id = true) (revision : Revision) :
    Catalog.expectedSize id revision = .ok (Packing.ofRevision revision).payloadLength := by
  obtain rfl | rfl | rfl := eq_of_ownsId h <;> cases revision <;> rfl

theorem lists_of_ownsId {id : UInt8} (h : ownsId id = true) : Catalog.Lists id := by
  obtain rfl | rfl | rfl := eq_of_ownsId h <;> decide

theorem checkId_eq (id : UInt8) : checkId id =
    if ownsId id then .ok ()
    else if Catalog.Lists id then .error (.invalidField "table id" s!"0x{Text.hexByte id} is not an NPA-NXX table")
    else .error (.unknownTable id) := by
  unfold checkId
  by_cases hl : Catalog.Lists id
  · obtain ⟨info, hinfo⟩ := Catalog.lookup_of_lists hl
    rw [hinfo, if_pos hl]
    cases ownsId id <;> rfl
  · have hown : ownsId id = false := by
      by_contra h
      exact hl (lists_of_ownsId (by simpa using h))
    rw [Catalog.lookup_of_not_lists hl, if_neg hl, hown]
    rfl

theorem ownsId_of_checkId {id : UInt8} (h : checkId id = .ok ()) : ownsId id = true := by
  by_contra hown
  rw [checkId_eq, if_neg hown] at h
  split at h <;> cases h

/-! Payloads. -/

theorem classes_fill (packing : Packing) : exchangeCount = exchangeCount / packing.perByte * packing.perByte := by
  cases packing <;> rfl

theorem read?_cons (id first second : UInt8) (data : Bytes) (packing : Packing) :
    read? id (first :: second :: data) packing =
      match AreaCode.decode first second with
      | .ok npa => (packing.unpack? exchangeCount data).map fun classes => .ok ⟨id, npa, packing, classes⟩
      | .error e => some (.error e) := by
  cases h : AreaCode.decode first second with
  | error e => simp [read?, h]
  | ok npa => cases hc : packing.unpack? exchangeCount data <;> simp [read?, h, headerLength, hc]

/-- A payload of the right length can be read; it is a table exactly if it begins with a header. -/
theorem read?_spec (id : UInt8) {payload : Bytes} {packing : Packing}
    (h : payload.length = packing.payloadLength) :
    ∃ answer, read? id payload packing = some answer ∧
      ((AreaCode.IsHeader (payload.take headerLength) ∧
          ∃ t, answer = .ok t ∧ t.encode = payload ∧ t.tableId = id ∧ t.packing = packing) ∨
        (¬ AreaCode.IsHeader (payload.take headerLength) ∧
          ∃ reason, answer = .error (AreaCode.invalid reason))) := by
  have hlen : headerLength ≤ payload.length := by
    rw [h, Packing.payloadLength]
    exact Nat.le_add_right _ _
  obtain ⟨first, second, data, rfl⟩ : ∃ first second data, payload = first :: second :: data := by
    match payload, hlen with
    | first :: second :: data, _ => exact ⟨first, second, data, rfl⟩
  have hdata : data.length = exchangeCount / packing.perByte := by
    rw [List.length_cons, List.length_cons, Packing.payloadLength, headerLength] at h
    omega
  -- the classes fill the rest to the last place
  have hcount : exchangeCount = data.length * packing.perByte := by
    rw [hdata]
    exact classes_fill packing
  obtain ⟨classes, hunpack, hpack⟩ := Packing.pack?_unpack? hcount
  rw [read?_cons]
  rcases AreaCode.decode_spec first second with
    ⟨hheader, npa, hdecode, hencode⟩ | ⟨hheader, reason, hdecode⟩
  · rw [hdecode, hunpack]
    refine ⟨_, rfl, .inl ⟨hheader, _, rfl, ?_, rfl, rfl⟩⟩
    rw [encode, hencode, ← hdata, hpack]
    rfl
  · rw [hdecode]
    exact ⟨_, rfl, .inr ⟨hheader, reason, rfl⟩⟩

/-- Parsing gives what is read, if the bytes are there to be read. -/
theorem result_parse {id : UInt8} {payload : Bytes} {packing : Packing} {answer : Except TableError Table}
    (h : read? id payload packing = some answer) : (parse id payload packing).result = answer := by
  rw [parse, h, Attempt.result_bind, Option.getD_some, Attempt.result_lift]
  cases answer <;> rfl

/-- Under an identifier of its own a payload of the right length is read in the packing of the revision. -/
theorem result_decodeAs {id : UInt8} (owned : ownsId id = true) (payload : Bytes) (revision : Revision) :
    (decodeAs id payload revision).result =
      if payload.length = (Packing.ofRevision revision).payloadLength then
        (parse id payload (Packing.ofRevision revision)).result
      else .error (.sizeMismatch id (Packing.ofRevision revision).payloadLength payload.length) := by
  rw [decodeAs, Attempt.result_bind, Attempt.result_lift, checkId_eq, if_pos owned]
  exact Catalog.result_validate_bind (expectedSize_of_ownsId owned revision) _

end Payphone.Lcd.Table
