import Payphone.Proofs.Lcd.Payload

/-!
Tables of local call determination while they are edited.

Encoding cuts every class to the width of its place and the area code to three digits without a word, so a table is
kept whole by its payload only if nothing is there to be cut: it is well formed (`WellFormed`). This file shows that

1. the payload of a table is read as what it keeps of it (`read?_encode_cut`), which is all of it if the table is well
   formed (`read?_encode`);
2. whatever makes a table makes a well-formed one (`wellFormed_new`, `wellFormed_of_read?`);
3. one edit keeps a table well formed (`WellFormed.assignClass`, `WellFormed.withPacking`), and an edit that fails
   changes nothing (`assignClass_of_error`), so every table that can be reached is well formed
   (`Reachable.wellFormed`).
-/
namespace Payphone.Lcd.Table

/-- Nothing of the table is cut when it is encoded. -/
structure WellFormed (t : Table) : Prop where
  owned : ownsId t.tableId = true
  npa : IsAreaCode t.npa
  fit : ∀ c ∈ t.classes.toList, c ≤ t.packing.maxClass

/-! The payload of a table. -/

theorem exchangeCount_le (packing : Packing) : exchangeCount ≤ exchangeCount / packing.perByte * packing.perByte :=
  Nat.le_of_eq (classes_fill packing)

/-- What the payload of a table keeps of it: the last three digits of the area code, and of every class what its place
has room for. -/
def cut (t : Table) : Table := { t with npa := t.npa % 1000, classes := t.classes.map t.packing.kept }

/-- No place is missing when a table is encoded, and the classes are found in their places. -/
theorem encode_eq (t : Table) :
    ∃ packed, t.packing.pack? (exchangeCount / t.packing.perByte) t.classes.toList = some packed ∧
      packed.length = exchangeCount / t.packing.perByte ∧
      t.packing.unpack? exchangeCount packed = some t.cut.classes ∧ t.encode = AreaCode.encode t.npa ++ packed := by
  obtain ⟨packed, hpack, hlen, hunpack⟩ := Packing.unpack?_pack? t.classes (exchangeCount_le t.packing)
  refine ⟨packed, hpack, hlen, hunpack, ?_⟩
  rw [encode, hpack, Option.getD_some]

theorem length_encode (t : Table) : t.encode.length = t.packing.payloadLength := by
  obtain ⟨packed, -, hlen, -, hencode⟩ := t.encode_eq
  rw [hencode, List.length_append, hlen]
  rfl

theorem read?_encode_cut {t : Table} (area : IsAreaCode (t.npa % 1000)) :
    read? t.tableId t.encode t.packing = some (.ok t.cut) := by
  obtain ⟨packed, -, -, hunpack, hencode⟩ := t.encode_eq
  obtain ⟨first, second, hheader, hdecode⟩ := AreaCode.decode_encode area
  rw [hencode, ← AreaCode.encode_mod, hheader, List.cons_append, List.singleton_append, read?_cons, hdecode]
  simp only [hunpack, Option.map_some]
  rfl

theorem WellFormed.cut_eq {t : Table} (h : t.WellFormed) : t.cut = t := by
  obtain ⟨-, hhigh⟩ := h.npa
  rw [cut, Nat.mod_eq_of_lt (by omega), Packing.map_kept_of_le h.fit]

theorem read?_encode {t : Table} (h : t.WellFormed) : read? t.tableId t.encode t.packing = some (.ok t) := by
  obtain ⟨hlow, hhigh⟩ := h.npa
  have area : IsAreaCode (t.npa % 1000) := by
    rw [Nat.mod_eq_of_lt (by omega)]
    exact h.npa
  rw [read?_encode_cut area, h.cut_eq]

theorem result_detect {id : UInt8} (owned : ownsId id = true) (payload : Bytes) :
    (detect id payload).result = match Packing.ofPayloadLength? payload.length with
      | some packing => (parse id payload packing).result
      | none => .error (.sizeMismatch id Packing.doubleCompressed.payloadLength payload.length) := by
  rw [detect, Attempt.result_bind, Attempt.result_lift, checkId_eq, if_pos owned]
  cases Packing.ofPayloadLength? payload.length <;> rfl

/-- The packing of a table is told by the length of its payload. -/
theorem result_detect_encode {t : Table} (owned : ownsId t.tableId = true) :
    (detect t.tableId t.encode).result = (parse t.tableId t.encode t.packing).result := by
  rw [result_detect owned, length_encode, Packing.ofPayloadLength?_payloadLength]

theorem detect_encode {t : Table} (h : t.WellFormed) : (detect t.tableId t.encode).result = .ok t := by
  rw [result_detect_encode h.owned]
  exact result_parse (read?_encode h)

theorem decodeAs_encode {t : Table} (h : t.WellFormed) {revision : Revision}
    (expected : t.packing = Packing.ofRevision revision) :
    (decodeAs t.tableId t.encode revision).result = .ok t := by
  rw [result_decodeAs h.owned, length_encode, ← expected, if_pos rfl, result_parse (read?_encode h)]

/-- A change of all classes alike is one of the class of each exchange. -/
theorem classOf?_map {t u : Table} {f : UInt8 → UInt8} (h : u.classes = t.classes.map f) (nxx : Nat) :
    u.classOf? nxx = (t.classOf? nxx).map f := by
  unfold classOf?
  rw [h]
  by_cases low : nxx < firstExchange
  · rw [if_pos low, if_pos low]
    rfl
  · rw [if_neg low, if_neg low]
    exact Vector.getElem?_map

/-! What makes a table. -/

theorem wellFormed_new {id : UInt8} {npa : Nat} {packing : Packing} {t : Table} (h : new id npa packing = .ok t) :
    t.WellFormed := by
  rw [new, checkId_eq] at h
  by_cases owned : ownsId id = true
  · by_cases area : IsAreaCode npa
    · simp [owned, area, bind, Except.bind, pure, Except.pure] at h
      subst h
      refine ⟨owned, area, ?_⟩
      intro c hc
      obtain ⟨-, rfl⟩ : exchangeCount ≠ 0 ∧ c = 0 := by simpa using hc
      exact UInt8.zero_le
    · simp [owned, area, bind, Except.bind, throw, throwThe, MonadExceptOf.throw] at h
  · rw [if_neg owned] at h
    split at h <;> cases h

theorem wellFormed_of_read? {id : UInt8} (owned : ownsId id = true) {payload : Bytes} {packing : Packing} {t : Table}
    (h : payload.length = packing.payloadLength) (ht : read? id payload packing = some (.ok t)) : t.WellFormed := by
  have hlen : headerLength + exchangeCount / packing.perByte = payload.length := h.symm
  match payload, hlen with
  | first :: second :: data, hlen =>
    have hdata : data.length = exchangeCount / packing.perByte := by
      rw [List.length_cons, List.length_cons, headerLength] at hlen
      omega
    rw [read?_cons] at ht
    cases hdecode : AreaCode.decode first second with
    | error e => simp [hdecode] at ht
    | ok npa =>
      simp only [hdecode, Option.map_eq_some_iff, Except.ok.injEq] at ht
      obtain ⟨classes, hunpack, rfl⟩ := ht
      have room : exchangeCount ≤ data.length * packing.perByte := by
        rw [hdata]
        exact exchangeCount_le packing
      exact ⟨owned, AreaCode.isAreaCode_of_decode hdecode, Packing.le_maxClass_of_unpack? room hunpack⟩

/-- A payload of the right length that is read as a table is that of a well-formed one. -/
theorem wellFormed_of_parse {id : UInt8} (owned : ownsId id = true) {payload : Bytes} {packing : Packing} {t : Table}
    (h : payload.length = packing.payloadLength) (ht : (parse id payload packing).result = .ok t) :
    t.WellFormed := by
  obtain ⟨answer, hread, -⟩ := read?_spec id h
  rw [result_parse hread] at ht
  exact wellFormed_of_read? owned h (ht ▸ hread)

/-- What begins with a check of the identifier succeeds under the identifiers of local call determination only. -/
theorem ownsId_of_checked {id : UInt8} {α : Type} {next : Unit → Attempt α} {a : α}
    (h : (liftM (checkId id) >>= next).result = .ok a) : ownsId id = true := by
  rw [Attempt.result_bind, Attempt.result_lift] at h
  cases hid : checkId id with
  | error e => simp [hid, Except.bind] at h
  | ok _ => exact ownsId_of_checkId hid

theorem wellFormed_decodeAs {id : UInt8} {payload : Bytes} {revision : Revision} {t : Table}
    (h : (decodeAs id payload revision).result = .ok t) : t.WellFormed := by
  have owned := ownsId_of_checked h
  rw [result_decodeAs owned] at h
  split at h
  · rename_i hlen
    exact wellFormed_of_parse owned hlen h
  · cases h

theorem wellFormed_detect {id : UInt8} {payload : Bytes} {t : Table} (h : (detect id payload).result = .ok t) :
    t.WellFormed := by
  have owned := ownsId_of_checked h
  rw [result_detect owned] at h
  cases hp : Packing.ofPayloadLength? payload.length with
  | none => simp [hp] at h
  | some packing =>
    have hlen : packing.payloadLength = payload.length := by simpa using List.find?_some hp
    rw [hp] at h
    exact wellFormed_of_parse owned hlen.symm h

/-! Edits. -/

/-- What setting a class in place answers, and the table afterwards. -/
theorem run_assignClass (t : Table) (nxx : Nat) (rate : UInt8) :
    (assignClass nxx rate).run.run t =
      if rate > t.packing.maxClass then
        (.error (.invalidField "rate class" s!"{Text.decimal rate.toNat} does not fit {t.packing.name}"), t)
      else if nxx < firstExchange ∨ lastExchange < nxx then
        (.error (.invalidField "NXX"
          s!"{Text.decimal nxx} outside {Text.decimal firstExchange}-{Text.decimal lastExchange}"), t)
      else (.ok (), { t with classes := t.classes.setIfInBounds (nxx - firstExchange) rate }) := by
  rw [assignClass, run_get_bind]
  by_cases wide : rate > t.packing.maxClass
  · rw [if_pos wide, if_pos wide]
    rfl
  · rw [if_neg wide, if_neg wide]
    by_cases outside : nxx < firstExchange ∨ lastExchange < nxx
    · rw [if_pos outside, if_pos outside]
      rfl
    · rw [if_neg outside, if_neg outside]
      rfl

/-- An edit that fails has written nothing. -/
theorem assignClass_of_error {t : Table} {nxx : Nat} {rate : UInt8} {e : TableError}
    (h : ((assignClass nxx rate).run.run t).1 = .error e) : ((assignClass nxx rate).run.run t).2 = t := by
  by_cases wide : rate > t.packing.maxClass
  · rw [run_assignClass, if_pos wide]
  · by_cases outside : nxx < firstExchange ∨ lastExchange < nxx
    · rw [run_assignClass, if_neg wide, if_pos outside]
    · rw [run_assignClass, if_neg wide, if_neg outside] at h
      cases h

theorem WellFormed.assignClass {t : Table} (h : t.WellFormed) (nxx : Nat) (rate : UInt8) :
    ((assignClass nxx rate).run.run t).2.WellFormed := by
  rw [run_assignClass]
  split
  · exact h
  · rename_i narrow
    split
    · exact h
    · refine ⟨h.owned, h.npa, ?_⟩
      intro c hc
      rw [Vector.toList_setIfInBounds] at hc
      -- the class that was set passed the check, and the others were there before
      rcases List.mem_or_eq_of_mem_set hc with hc | rfl
      · exact h.fit c hc
      · exact UInt8.not_lt.1 narrow

theorem WellFormed.withPacking {t : Table} (h : t.WellFormed) (packing : Packing) :
    (t.withPacking packing).WellFormed := by
  refine ⟨h.owned, h.npa, ?_⟩
  intro c hc
  obtain ⟨rate, -, rfl⟩ : ∃ rate ∈ t.classes.toList, min rate packing.maxClass = c := by
    simpa [Table.withPacking] using hc
  exact Std.min_le_right

/-- A table as the operations make it and edits leave it, whether they succeed or fail. -/
inductive Reachable : Table → Prop
  | new {id : UInt8} {npa : Nat} {packing : Packing} {t : Table} (h : Table.new id npa packing = .ok t) : Reachable t
  | decodeAs {id : UInt8} {payload : Bytes} {revision : Revision} {t : Table}
      (h : (Table.decodeAs id payload revision).result = .ok t) : Reachable t
  | detect {id : UInt8} {payload : Bytes} {t : Table} (h : (Table.detect id payload).result = .ok t) : Reachable t
  | assignClass {t : Table} (h : Reachable t) (nxx : Nat) (rate : UInt8) :
      Reachable ((Table.assignClass nxx rate).run.run t).2
  | withPacking {t : Table} (h : Reachable t) (packing : Packing) : Reachable (t.withPacking packing)

theorem Reachable.wellFormed {t : Table} (h : Reachable t) : t.WellFormed := by
  induction h with
  | new h => exact wellFormed_new h
  | decodeAs h => exact wellFormed_decodeAs h
  | detect h => exact wellFormed_detect h
  | assignClass _ nxx rate ih => exact ih.assignClass nxx rate
  | withPacking _ packing ih => exact ih.withPacking packing

/-- **No edit makes a table that its payload would not keep.** Every table that can be reached has an identifier of
its kind, an area code and a class for each of the 800 exchanges that its packing has room for. So the payload has
the length of the packing and is read as the same table, and an edit that fails leaves the table as it was. -/
theorem reachable_tables_survive {t : Table} (h : Reachable t) :
    (0x88 ≤ t.tableId ∧ t.tableId ≤ 0x8a) ∧ (200 ≤ t.npa ∧ t.npa ≤ 999) ∧ t.classes.toList.length = 800 ∧
    (∀ c ∈ t.classes.toList, c ≤ t.packing.maxClass) ∧
    t.encode.length = t.packing.payloadLength ∧
    (detect t.tableId t.encode).result = .ok t ∧
    ∀ nxx rate e, ((assignClass nxx rate).run.run t).1 = .error e → ((assignClass nxx rate).run.run t).2 = t := by
  have whole := h.wellFormed
  refine ⟨(ownsId_iff t.tableId).1 whole.owned, whole.npa, Vector.length_toList, whole.fit, length_encode t,
    detect_encode whole, ?_⟩
  intro nxx rate e failed
  exact assignClass_of_error failed

/-- A class that is set, one that is too large, an exchange that is none, and a change of packing. -/
theorem reachable_tables_survive_edited :
    ∃ start, Table.new 0x89 408 .doubleCompressed = .ok start ∧
      let first := ((assignClass 555 2).run.run start).2
      let second := ((assignClass 555 9).run.run first).2
      let third := ((assignClass 1000 1).run.run second).2
      Reachable (third.withPacking .compressed) ∧
      (detect (third.withPacking .compressed).tableId (third.withPacking .compressed).encode).result =
        .ok (third.withPacking .compressed) := by
  have made : Table.new 0x89 408 .doubleCompressed =
      .ok ⟨0x89, 408, .doubleCompressed, Vector.replicate exchangeCount 0⟩ := rfl
  have edited := (((Reachable.new made).assignClass 555 2).assignClass 555 9).assignClass 1000 1
  have reached := edited.withPacking .compressed
  exact ⟨_, made, reached, (reachable_tables_survive reached).2.2.2.2.2.1⟩

end Payphone.Lcd.Table
