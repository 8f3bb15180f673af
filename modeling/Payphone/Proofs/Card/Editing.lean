import Payphone.Proofs.Card.Conversion

/-!
Card tables while they are edited.

An edit changes the verification flags of all entries or the carrier reference of one, and nothing else of an entry
(`Edit.onEntry`). Both are single bytes of the payload, at the same place in every entry. This file shows that

1. an edit, and so a run of edits, is a change entry by entry (`Edit.getElem?_perform`, `getElem?_performAll`);
2. an entry with other flags and another reference is written with other bytes in these two places only
   (`Entry.getElem?_write_update`), so a run of edits changes these bytes of the payload (`getElem?_encode_performAll`);
3. an edit that leaves the entries alone that a conversion adds may come before it or after it
   (`result_convert_perform`).
-/
namespace Payphone.Card

/-! The two bytes in an entry. -/

namespace Entry

/-- The place of the verification flags in the bytes of an entry. -/
def verifyPlace : Nat := 7

/-- The place of the carrier reference in the bytes of an entry. -/
def carrierRefPlace : Nat := 32

variable {revision : Revision}

/-- Only the two fields have these places. -/
theorem name_iff_place (revision : Revision) : ∀ f ∈ (layout revision).fields,
    ∀ k < (layout revision).entryLength, f.Covers k →
      (f.name = "vfy_flags" ↔ k = verifyPlace) ∧ (f.name = "carrier_ref" ↔ k = carrierRefPlace) := by
  cases revision <;> decide

theorem getElem?_write {f : Field} (hf : f ∈ (layout revision).fields) {k : Nat} (hk : f.Covers k) (e : Entry) :
    (e.write (layout revision))[k]? = (e.value f.name)[k - f.offset]? := by
  rw [← slice_write hf, Field.getElem?_slice hk]

/-- A field of one byte is written as that byte. -/
theorem getElem?_write_byte {f : Field} (hf : f ∈ (layout revision).fields) {k : Nat} (hk : f.Covers k) {e : Entry}
    {x : UInt8} (hx : e.value f.name = [x]) : (e.write (layout revision))[k]? = some x := by
  have inside := hk.sub_lt
  rw [← (fits_layout revision).sized f hf e, hx, List.length_singleton] at inside
  rw [getElem?_write hf hk, hx, Nat.lt_one_iff.1 inside]
  rfl

/-- An entry with other flags and another reference has the same for all other fields. -/
theorem value_update (e : Entry) (verify carrierRef : UInt8) {name : String} (hv : name ≠ "vfy_flags")
    (hc : name ≠ "carrier_ref") : ({ e with verify, carrierRef } : Entry).value name = e.value name := by
  unfold value
  split <;> first | rfl | contradiction

/-- Writing it changes the two bytes. -/
theorem getElem?_write_update (e : Entry) (verify carrierRef : UInt8) {k : Nat}
    (hk : k < (layout revision).entryLength) :
    (({ e with verify, carrierRef } : Entry).write (layout revision))[k]? =
      if k = verifyPlace then some verify else if k = carrierRefPlace then some carrierRef
      else (e.write (layout revision))[k]? := by
  obtain ⟨f, hf, hcov⟩ := (fits_layout revision).covered k hk
  obtain ⟨flags, reference⟩ := name_iff_place revision f hf k hk hcov
  by_cases hv : f.name = "vfy_flags"
  · rw [if_pos (flags.1 hv)]
    exact getElem?_write_byte hf hcov (by rw [hv]; rfl)
  · rw [if_neg fun h => hv (flags.2 h)]
    by_cases hc : f.name = "carrier_ref"
    · rw [if_pos (reference.1 hc)]
      exact getElem?_write_byte hf hcov (by rw [hc]; rfl)
    · rw [if_neg fun h => hc (reference.2 h), getElem?_write hf hcov, getElem?_write hf hcov,
        value_update e verify carrierRef hv hc]

end Entry

namespace Table

/-! Edits. -/

inductive Edit
  | setCarrierRef (index : Nat) (carrierRef : UInt8)
  | clearVerify (bits : UInt8)
  | setVerify (bits : UInt8)
deriving Repr, DecidableEq

namespace Edit

def perform (t : Table) : Edit → Table
  | setCarrierRef index carrierRef => t.setCarrierRef index carrierRef
  | clearVerify bits => t.clearVerify bits
  | setVerify bits => t.setVerify bits

/-- What the edit makes of verification flags. -/
def onFlags (flags : UInt8) : Edit → UInt8
  | setCarrierRef _ _ => flags
  | clearVerify bits => flags &&& ~~~bits
  | setVerify bits => flags ||| bits

/-- The reference that the edit sets in slot `i`, if it does. -/
def refAt? (i : Nat) : Edit → Option UInt8
  | setCarrierRef index carrierRef => if index = i then some carrierRef else none
  | clearVerify _ => none
  | setVerify _ => none

/-- What the edit makes of the entry in slot `i`. -/
def onEntry (edit : Edit) (i : Nat) (e : Entry) : Entry :=
  { e with verify := edit.onFlags e.verify, carrierRef := (edit.refAt? i).getD e.carrierRef }

theorem revision_perform (edit : Edit) (t : Table) : (edit.perform t).revision = t.revision := by
  cases edit <;> rfl

theorem getElem?_perform (edit : Edit) (t : Table) (i : Nat) :
    (edit.perform t).entries[i]? = t.entries[i]?.map (edit.onEntry i) := by
  cases edit with
  | setCarrierRef index carrierRef =>
    rw [perform, Table.setCarrierRef, List.getElem?_modify]
    change Option.map _ _ = _
    congr 1
    funext e
    by_cases own : index = i
    · rw [if_pos own, onEntry, refAt?, if_pos own]
      rfl
    · rw [if_neg own, onEntry, refAt?, if_neg own]
      rfl
  | clearVerify bits => exact List.getElem?_map
  | setVerify bits => exact List.getElem?_map

theorem length_perform (edit : Edit) (t : Table) : (edit.perform t).entries.length = t.entries.length := by
  cases edit with
  | setCarrierRef index carrierRef => exact List.length_modify ..
  | clearVerify bits => exact List.length_map ..
  | setVerify bits => exact List.length_map ..

end Edit

/-! Runs of edits. -/

/-- Performs the edits in order. -/
def performAll (edits : List Edit) (t : Table) : Table := edits.foldl (fun t edit => edit.perform t) t

/-- What the edits make of verification flags, in order. -/
def flagsAfter (edits : List Edit) (flags : UInt8) : UInt8 := edits.foldl Edit.onFlags flags

/-- The reference in slot `i` after the edits: the last one that is set there, or the one from before. -/
def refAfter (edits : List Edit) (i : Nat) (carrierRef : UInt8) : UInt8 :=
  (edits.filterMap (Edit.refAt? i)).getLast?.getD carrierRef

theorem refAfter_cons (edit : Edit) (edits : List Edit) (i : Nat) (carrierRef : UInt8) :
    refAfter (edit :: edits) i carrierRef = refAfter edits i ((edit.refAt? i).getD carrierRef) := by
  unfold refAfter
  cases h : edit.refAt? i with
  | none => rw [List.filterMap_cons_none h, Option.getD_none]
  | some own => rw [List.filterMap_cons_some h, List.getLast?_cons, Option.getD_some, Option.getD_some]

theorem revision_performAll (edits : List Edit) (t : Table) : (performAll edits t).revision = t.revision := by
  induction edits generalizing t with
  | nil => rfl
  | cons edit edits ih => exact (ih (edit.perform t)).trans (edit.revision_perform t)

theorem length_performAll (edits : List Edit) (t : Table) :
    (performAll edits t).entries.length = t.entries.length := by
  induction edits generalizing t with
  | nil => rfl
  | cons edit edits ih => exact (ih (edit.perform t)).trans (edit.length_perform t)

theorem getElem?_performAll (edits : List Edit) (t : Table) (i : Nat) :
    (performAll edits t).entries[i]? = t.entries[i]?.map fun e =>
      { e with verify := flagsAfter edits e.verify, carrierRef := refAfter edits i e.carrierRef } := by
  induction edits generalizing t with
  | nil => exact Option.map_id'.symm
  | cons edit edits ih =>
    refine (ih (edit.perform t)).trans ?_
    rw [edit.getElem?_perform, Option.map_map]
    congr 1
    funext e
    rw [refAfter_cons]
    rfl

/-! The payload of a table whose slots are all there. -/

section

variable {t : Table} (full : t.entries.length = entryCount t.revision)
include full

theorem getElem?_encode (i : Nat) {k : Nat} (hk : k < (layout t.revision).entryLength) :
    t.encode[(layout t.revision).entryLength * i + k]? =
      t.entries[i]?.bind fun e => (e.write (layout t.revision))[k]? := by
  rw [encode, slots_of_length full]
  exact getElem?_flatMap_rows (Entry.length_write (layout t.revision)) t.entries i hk

/-- **A run of edits changes two bytes of every entry.** -/
theorem getElem?_encode_performAll (edits : List Edit) (i : Nat) {k : Nat}
    (hk : k < (layout t.revision).entryLength) :
    (performAll edits t).encode[(layout t.revision).entryLength * i + k]? =
      t.encode[(layout t.revision).entryLength * i + k]?.map fun x =>
        if k = Entry.verifyPlace then flagsAfter edits x
        else if k = Entry.carrierRefPlace then refAfter edits i x else x := by
  have full' : (performAll edits t).entries.length = entryCount (performAll edits t).revision := by
    rw [length_performAll, revision_performAll, full]
  have edited := getElem?_encode full' i (k := k)
  rw [revision_performAll] at edited
  rw [edited hk, getElem?_encode full i hk, getElem?_performAll]
  cases t.entries[i]? with
  | none => rfl
  | some e =>
    -- the entry itself is written with the flags and the reference that it has
    have own : (e.write (layout t.revision))[k]? = _ := Entry.getElem?_write_update e e.verify e.carrierRef hk
    have after := Entry.getElem?_write_update e (flagsAfter edits e.verify) (refAfter edits i e.carrierRef) hk
    rw [Option.map_some, Option.bind_some, Option.bind_some, after]
    by_cases hv : k = Entry.verifyPlace
    · rw [own, if_pos hv, if_pos hv, Option.map_some, if_pos hv]
    · rw [if_neg hv]
      by_cases hc : k = Entry.carrierRefPlace
      · rw [own, if_neg hv, if_pos hc, if_pos hc, Option.map_some, if_neg hv, if_pos hc]
      · simp only [if_neg hv, if_neg hc, Option.map_id']

end

/-! Edits and conversions. -/

theorem eq_of_getElem? {t u : Table} (same : t.revision = u.revision)
    (entries : ∀ i : Nat, t.entries[i]? = u.entries[i]?) : t = u := by
  cases t
  cases u
  congr 1
  exact List.ext_getElem? entries

namespace Edit

theorem under_onEntry (edit : Edit) (i : Nat) (e : Entry) (revision : Revision) :
    (edit.onEntry i e).under revision = edit.onEntry i (e.under revision) := by
  cases revision <;> rfl

/-- The edit leaves the entries of zeros alone that a conversion adds. -/
def SparesAdded (edit : Edit) (source target : Revision) : Prop :=
  ∀ i, entryCount source ≤ i → i < entryCount target → edit.onEntry i {} = {}

variable {source target : Revision}

theorem sparesAdded_clearVerify (bits : UInt8) : (clearVerify bits).SparesAdded source target := by
  intro i _ _
  rw [onEntry, onFlags, UInt8.zero_and]
  rfl

theorem sparesAdded_setVerify (fewer : entryCount target ≤ entryCount source) (bits : UInt8) :
    (setVerify bits).SparesAdded source target := by
  intro i added there
  omega

theorem sparesAdded_setCarrierRef {index : Nat} (inside : index < entryCount source) (carrierRef : UInt8) :
    (setCarrierRef index carrierRef).SparesAdded source target := by
  intro i added _
  have other : index ≠ i := by omega
  rw [onEntry, refAt?, if_neg other]
  rfl

end Edit

section

variable {t : Table} (full : t.entries.length = entryCount t.revision) {target : Revision} {edit : Edit}
  (spares : edit.SparesAdded t.revision target)
include full spares

theorem carried_perform {i : Nat} (hi : i < entryCount target) :
    (edit.perform t).carried i = edit.onEntry i (t.carried i) := by
  by_cases inside : i < entryCount t.revision
  · have he : t.entries[i]? = some t.entries[i] := List.getElem?_eq_getElem (full ▸ inside)
    have edited : (edit.perform t).entries[i]? = some (edit.onEntry i t.entries[i]) := by
      rw [edit.getElem?_perform, he, Option.map_some]
    rw [carried_of_getElem? he inside, carried_of_getElem? edited (by rwa [edit.revision_perform]),
      edit.revision_perform, edit.under_onEntry]
  · have beyond : entryCount t.revision ≤ i := Nat.not_lt.1 inside
    rw [carried_of_absent (.inr beyond), carried_of_absent (.inr (by rwa [edit.revision_perform])),
      spares i beyond hi]

/-- An edit that spares the entries that a conversion adds may come before it or after it. -/
theorem result_convert_perform {v : Table} (h : (t.convert target).result = .ok v) :
    ((edit.perform t).convert target).result = .ok (edit.perform v) := by
  rw [result_convert] at h ⊢
  obtain rfl := Except.ok.inj h
  congr 1
  apply eq_of_getElem?
  · rw [edit.revision_perform]
  · intro i
    rw [edit.getElem?_perform, List.getElem?_map, List.getElem?_map]
    by_cases hi : i < entryCount target
    · rw [List.getElem?_range hi, Option.map_some, Option.map_some, Option.map_some,
        carried_perform full spares hi, edit.under_onEntry]
    · rw [List.getElem?_eq_none (by rw [List.length_range]; omega)]
      rfl

end

/-- **A run of edits changes two bytes of every entry, and may be moved past a conversion.** On every payload of a
revision, after edits of any number and order for slots that are there or not, the bytes of the verification flags are
the old ones with the edits of the flags performed in order, the byte of the carrier reference in a slot is the last
one set there, or the old one if none was, and all other bytes are the old ones. A reference for a slot that is not
there changes nothing. One more edit comes to the same before and after a conversion: clearing flags always, setting
flags if the conversion adds no entries, and setting a reference if the slot is there before the conversion. -/
theorem edits_change_two_bytes (revision : Revision) (payload : Bytes)
    (h : payload.length = (layout revision).tableLength) (edits : List Edit) :
    ∃ t, (decode payload revision).result = .ok t ∧
      (performAll edits t).encode.length = payload.length ∧
      (∀ pos, (∀ i, pos ≠ i * Entry.length revision + 7 ∧ pos ≠ i * Entry.length revision + 32) →
        (performAll edits t).encode[pos]? = payload[pos]?) ∧
      (∀ i, (performAll edits t).encode[i * Entry.length revision + 7]? =
        payload[i * Entry.length revision + 7]?.map (flagsAfter edits)) ∧
      (∀ i, (performAll edits t).encode[i * Entry.length revision + 32]? =
        payload[i * Entry.length revision + 32]?.map (refAfter edits i)) ∧
      (∀ index carrierRef, entryCount revision ≤ index →
        (performAll edits t).setCarrierRef index carrierRef = performAll edits t) ∧
      ∀ target, ∃ v, ((performAll edits t).convert target).result = .ok v ∧
        (∀ bits, (((performAll edits t).clearVerify bits).convert target).result = .ok (v.clearVerify bits)) ∧
        (entryCount target ≤ entryCount revision →
          ∀ bits, (((performAll edits t).setVerify bits).convert target).result = .ok (v.setVerify bits)) ∧
        ∀ index carrierRef, index < entryCount revision →
          (((performAll edits t).setCarrierRef index carrierRef).convert target).result =
            .ok (v.setCarrierRef index carrierRef) := by
  have decoded : (decode payload revision).result = .ok (ofPayload revision payload) := by
    rw [result_decode, if_pos h]
  have full := length_entries_ofPayload h
  have same := encode_ofPayload h
  generalize ht : ofPayload revision payload = t at decoded full same
  obtain rfl : t.revision = revision := by rw [← ht]; rfl
  have full' : (performAll edits t).entries.length = entryCount (performAll edits t).revision := by
    rw [length_performAll, revision_performAll, full]
  have place (i : Nat) {k : Nat} (hk : k < Entry.length t.revision) :
      (performAll edits t).encode[i * Entry.length t.revision + k]? =
        payload[i * Entry.length t.revision + k]?.map fun x =>
          if k = Entry.verifyPlace then flagsAfter edits x
          else if k = Entry.carrierRefPlace then refAfter edits i x else x := by
    rw [← entryLength_layout] at hk ⊢
    rw [Nat.mul_comm, ← same]
    exact getElem?_encode_performAll full edits i hk
  have long : 32 < Entry.length t.revision := by cases t.revision <;> decide
  refine ⟨t, decoded, ?_, ?_, ?_, ?_, ?_, ?_⟩
  · rw [length_encode, revision_performAll, h]
  · intro pos elsewhere
    obtain ⟨i, k, hk, rfl⟩ : ∃ i k, k < Entry.length t.revision ∧ pos = i * Entry.length t.revision + k :=
      ⟨_, _, Nat.mod_lt pos (by omega), (Nat.div_add_mod' pos _).symm⟩
    obtain ⟨notFlags, notReference⟩ := elsewhere i
    have hv : k ≠ Entry.verifyPlace := fun hv => notFlags (by rw [hv]; rfl)
    have hc : k ≠ Entry.carrierRefPlace := fun hc => notReference (by rw [hc]; rfl)
    rw [place i hk]
    simp only [if_neg hv, if_neg hc, Option.map_id']
  · intro i
    exact place i (by omega)
  · intro i
    exact place i long
  · intro index carrierRef outside
    rw [setCarrierRef, List.modify_eq_self (by rw [length_performAll, full]; exact outside)]
  · intro target
    have converted := result_convert (performAll edits t) target
    refine ⟨_, converted, ?_, ?_, ?_⟩
    · intro bits
      exact result_convert_perform full' (Edit.sparesAdded_clearVerify bits) converted
    · intro fewer bits
      rw [← revision_performAll edits t] at fewer
      exact result_convert_perform full' (Edit.sparesAdded_setVerify fewer bits) converted
    · intro index carrierRef inside
      rw [← revision_performAll edits t] at inside
      exact result_convert_perform full' (Edit.sparesAdded_setCarrierRef inside carrierRef) converted

/-- Two edits of one reference, one of a slot that is not there, and flags that are set and cleared again in part. -/
theorem edits_change_two_bytes_of_mtr1 :
    let payload : Bytes := List.replicate 660 0x41
    let edits : List Edit := [.setCarrierRef 3 1, .setVerify 0x06, .setCarrierRef 20 9, .clearVerify 0x03,
      .setCarrierRef 3 2]
    payload.length = (layout .mtr1).tableLength ∧
    ∃ t, (decode payload .mtr1).result = .ok t ∧
      (performAll edits t).encode[3 * 33 + 7]? = some 0x44 ∧ (performAll edits t).encode[3 * 33 + 32]? = some 2 ∧
      (performAll edits t).encode[4 * 33 + 32]? = some 0x41 ∧ (performAll edits t).encode[3 * 33 + 6]? = some 0x41 ∧
      ∃ v, ((performAll edits t).convert .mtr2).result = .ok v ∧
        (((performAll edits t).setCarrierRef 19 5).convert .mtr2).result = .ok (v.setCarrierRef 19 5) := by
  intro payload edits
  have size : payload.length = (layout .mtr1).tableLength := List.length_replicate
  have byte {pos : Nat} (h : pos < 660) : payload[pos]? = some 0x41 := List.getElem?_replicate_of_lt h
  obtain ⟨t, ht, -, elsewhere, flags, references, -, conversions⟩ := edits_change_two_bytes .mtr1 payload size edits
  obtain ⟨v, hv, -, -, reference⟩ := conversions .mtr2
  refine ⟨size, t, ht, ?_, ?_, ?_, ?_, v, hv, reference 19 5 (by decide)⟩
  · exact (flags 3).trans (by rw [byte (by decide)]; rfl)
  · exact (references 3).trans (by rw [byte (by decide)]; rfl)
  · exact (references 4).trans (by rw [byte (by decide)]; rfl)
  · have place : ∀ i, 3 * 33 + 6 ≠ i * Entry.length .mtr1 + 7 ∧ 3 * 33 + 6 ≠ i * Entry.length .mtr1 + 32 := by
      intro i
      rw [Entry.length]
      omega
    rw [elsewhere (3 * 33 + 6) place, byte (by decide)]

end Table

end Payphone.Card
