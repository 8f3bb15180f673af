import Payphone.Proofs.Carrier.Payload
import Payphone.Proofs.Patches

/-!
Carrier tables while they are edited.

As long as a table has as many carriers as its payload has slots, each of its parts has a place of its own in the
payload (`encode_of_full`) and the payload is read as the same table (`decode_encode`). This file shows that

1. an edit that succeeds is a patch of the payload, at a place that only the kind of edit and the slot decide
   (`Edit.perform_of_fits`), and an edit that fails changes nothing (`Edit.perform_of_not_fits`);
2. a run of edits is a run of patches by those that succeed, and the slots remain full (`run_performAll`);
3. so what none of those patches covers stays as it was, the spare bytes among it (`edits_stay_in_place`).
-/
namespace Payphone.Carrier

namespace Entry

/-! The prompt within the bytes of an entry. -/

/-- What stands in front of the prompt. -/
def front (e : Entry) : Bytes := [e.carrierRef] ++ (Bytes.ofWord e.number ++ Bytes.ofLong e.validCards)

/-- What stands behind the prompt. -/
def behind (e : Entry) : Bytes :=
  [e.control2] ++ ([e.control] ++ (Bytes.ofWord e.fgbTimer ++ ([e.internationalAccept] ++ [e.callEntry])))

theorem encode_eq (e : Entry) : form.encode e = e.front ++ (e.prompt.toList ++ e.behind) := by
  simp only [form, FixedWidth.encode_map, FixedWidth.encode_pair, FixedWidth.encode_byte, FixedWidth.encode_word,
    FixedWidth.encode_long, FixedWidth.encode_bytes, front, behind, List.append_assoc]

/-- Another prompt changes the bytes of the prompt only. -/
theorem encode_withPrompt (e : Entry) (text : String) :
    form.encode (e.withPrompt text) = (form.encode e).overwrite 7 (e.withPrompt text).prompt.toList := by
  have place : 7 = e.front.length + 0 := rfl
  have size : (e.withPrompt text).prompt.toList.length = e.prompt.toList.length := by
    rw [Vector.length_toList, Vector.length_toList]
  have before : (e.withPrompt text).front = e.front := by simp only [front, withPrompt]
  have after : (e.withPrompt text).behind = e.behind := by simp only [behind, withPrompt]
  rw [encode_eq, encode_eq e, before, after, place, Bytes.overwrite_append_right, Bytes.overwrite_front size]

end Entry

namespace Table

/-! The payload of a table whose slots are all there. -/

section

variable {t : Table} (full : t.carriers.length = slotCount)
include full

theorem toList_slots_of_full : t.slots.toList = t.carriers := by
  rw [toList_slots, full, Nat.sub_self, List.replicate_zero, List.append_nil, List.take_of_length_le (by omega)]

theorem encode_of_full :
    t.encode = t.defaults.toList ++ (t.carriers.flatMap Entry.form.encode ++ t.spare.toList) := by
  rw [encode, imageForm, FixedWidth.encode_pair, FixedWidth.encode_pair, FixedWidth.encode_vector,
    FixedWidth.encode_bytes, FixedWidth.encode_bytes, toImage, toList_slots_of_full full]

theorem decode_encode (revision : Revision) : (decode t.encode revision).result = .ok t := by
  rw [result_decode_encode, toList_slots_of_full full]

/-! Each operation as a patch. -/

/-- A carrier that is patched patches the payload, behind the selectors and the carriers in front of it. -/
theorem encode_set {i : Nat} {old new : Entry} (hold : t.carriers[i]? = some old) {offset : Nat} {patch : Bytes}
    (inside : offset + patch.length ≤ Entry.length)
    (hnew : Entry.form.encode new = (Entry.form.encode old).overwrite offset patch) :
    encode { t with carriers := t.carriers.set i new } =
      t.encode.overwrite (defaultCount + (Entry.length * i + offset)) patch := by
  have hi : i < slotCount := by
    rw [← full]
    exact (List.getElem?_eq_some_iff.1 hold).1
  have full' : (t.carriers.set i new).length = slotCount := by rw [List.length_set, full]
  have room : Entry.length * i + offset + patch.length ≤ (t.carriers.flatMap Entry.form.encode).length := by
    have rows : (t.carriers.flatMap Entry.form.encode).length = Entry.length * slotCount := by
      rw [length_flatMap_rows Entry.form.length_encode, full]
      rfl
    have row : Entry.length * (i + 1) ≤ Entry.length * slotCount := Nat.mul_le_mul_left _ hi
    rw [Nat.mul_succ] at row
    omega
  calc encode { t with carriers := t.carriers.set i new }
      = t.defaults.toList ++ ((t.carriers.set i new).flatMap Entry.form.encode ++ t.spare.toList) :=
        encode_of_full full'
    _ = t.defaults.toList ++ (Bytes.overwrite (t.carriers.flatMap Entry.form.encode) (Entry.length * i + offset) patch ++
          t.spare.toList) := by
        rw [Bytes.flatMap_set_rows Entry.form.length_encode hold inside hnew]
        rfl
    _ = t.encode.overwrite (defaultCount + (Entry.length * i + offset)) patch := by
        rw [← Bytes.overwrite_append_left room, ← Bytes.overwrite_append_right, Vector.length_toList,
          encode_of_full full]

theorem encode_resetDefaults :
    t.resetDefaults.encode = t.encode.overwrite 0 (List.replicate defaultCount 0) := by
  have size : (List.replicate defaultCount (0 : UInt8)).length = t.defaults.toList.length := by
    rw [List.length_replicate, Vector.length_toList]
  have full' : t.resetDefaults.carriers.length = slotCount := full
  rw [encode_of_full full', encode_of_full full, Bytes.overwrite_front size]
  rfl

/-- The carriers that provisioning installs. -/
def standardCarriers : List Entry := standardPrompts.mapIdx fun i prompt => Entry.standard (UInt8.ofNat i) prompt

theorem carriers_provision :
    t.provision.carriers = standardCarriers ++ t.carriers.drop standardCarriers.length := by
  have count : standardCarriers.length = standardPrompts.length := List.length_mapIdx
  have few : standardPrompts.length ≤ t.carriers.length := by
    rw [full]
    decide
  apply List.ext_getElem?
  intro i
  rw [provision, List.getElem?_mapIdx]
  by_cases hi : i < standardPrompts.length
  · have hi' : i < t.carriers.length := Nat.lt_of_lt_of_le hi few
    rw [List.getElem?_append_left (by omega), standardCarriers, List.getElem?_mapIdx, List.getElem?_eq_getElem hi,
      List.getElem?_eq_getElem hi', Option.map_some, Option.map_some, standardEntry, List.getElem?_eq_getElem hi]
  · rw [List.getElem?_append_right (by omega), List.getElem?_drop, Nat.add_sub_of_le (by omega)]
    have kept : standardEntry i = id := by
      funext e
      rw [standardEntry, List.getElem?_eq_none (by omega)]
      rfl
    rw [kept, Option.map_id, id]

theorem encode_provision :
    t.provision.encode =
      t.encode.overwrite 0 (List.replicate defaultCount 0 ++ standardCarriers.flatMap Entry.form.encode) := by
  have full' : t.provision.carriers.length = slotCount := by rw [provision, List.length_mapIdx, full]
  -- the payload cut behind the standard carriers
  have parts : t.encode =
      (t.defaults.toList ++ (t.carriers.take standardCarriers.length).flatMap Entry.form.encode) ++
        ((t.carriers.drop standardCarriers.length).flatMap Entry.form.encode ++ t.spare.toList) := by
    rw [encode_of_full full, List.append_assoc, ← List.append_assoc (List.flatMap _ _), ← List.flatMap_append,
      List.take_append_drop]
  have size : (List.replicate defaultCount (0 : UInt8) ++ standardCarriers.flatMap Entry.form.encode).length =
      (t.defaults.toList ++ (t.carriers.take standardCarriers.length).flatMap Entry.form.encode).length := by
    have few : standardCarriers.length ≤ t.carriers.length := by
      rw [full, standardCarriers, List.length_mapIdx]
      decide
    rw [List.length_append, List.length_append, List.length_replicate, Vector.length_toList,
      length_flatMap_rows Entry.form.length_encode, length_flatMap_rows Entry.form.length_encode,
      List.length_take_of_le few]
  calc t.provision.encode
      = List.replicate defaultCount 0 ++
          ((standardCarriers ++ t.carriers.drop standardCarriers.length).flatMap Entry.form.encode ++
            t.spare.toList) := by
        rw [encode_of_full full', carriers_provision full]
        rfl
    _ = (List.replicate defaultCount 0 ++ standardCarriers.flatMap Entry.form.encode) ++
          ((t.carriers.drop standardCarriers.length).flatMap Entry.form.encode ++ t.spare.toList) := by
        rw [List.flatMap_append, List.append_assoc, List.append_assoc]
    _ = t.encode.overwrite 0 (List.replicate defaultCount 0 ++ standardCarriers.flatMap Entry.form.encode) := by
        rw [parts, Bytes.overwrite_front size]

end

/-- What provisioning writes over the front of a payload, whatever the payload. -/
def standardFront : Bytes := List.replicate defaultCount 0 ++ standardCarriers.flatMap Entry.form.encode

theorem length_standardFront : standardFront.length = 339 := by
  rw [standardFront, List.length_append, List.length_replicate, length_flatMap_rows Entry.form.length_encode,
    standardCarriers, List.length_mapIdx]
  rfl

theorem encode_provision_ofImage {payload : Bytes} (h : payload.length = imageForm.width) :
    (ofImage (imageForm.decode payload)).provision.encode = standardFront ++ payload.drop 339 := by
  have full : (ofImage (imageForm.decode payload)).carriers.length = slotCount := Vector.length_toList
  rw [encode_provision full, encode_decode h, ← standardFront, Bytes.overwrite, List.take_zero, List.nil_append,
    Nat.zero_add, length_standardFront]

/-! Edits. -/

inductive Edit
  | resetDefaults
  | provision
  | replaceEntry (index : Nat) (entry : Entry)
  | setPrompt (index : Nat) (text : String)
deriving Repr, DecidableEq

/-- What replacing an entry in place answers, and the table afterwards. -/
theorem run_assignEntry (t : Table) (index : Nat) (entry : Entry) :
    (assignEntry index entry).run.run t =
      if t.carriers.length ≤ index then
        (.error (.invalidField "carrier index" s!"{Text.decimal index} outside 0-{Text.decimal (slotCount - 1)}"), t)
      else (.ok (), { t with carriers := t.carriers.set index entry }) := by
  rw [assignEntry, run_get_bind]
  by_cases outside : t.carriers.length ≤ index
  · rw [if_pos outside, if_pos outside]
    rfl
  · rw [if_neg outside, if_neg outside]
    rfl

namespace Edit

/-- Edits the table in place and says whether the edit succeeded. -/
def perform : Edit → StateM Table Bool
  | resetDefaults => do
    modify Table.resetDefaults
    return true
  | provision => do
    modify Table.provision
    return true
  | replaceEntry index entry => do
    match ← (assignEntry index entry).run with
    | .ok _ => return true
    | .error _ => return false
  | setPrompt index text => do
    match (← get).setPrompt? index text with
    | some edited =>
      set edited
      return true
    | none => return false

/-- The first position of the payload that the edit may change. -/
def start : Edit → Nat
  | resetDefaults => 0
  | provision => 0
  | replaceEntry index _ => 9 + 33 * index
  | setPrompt index _ => 16 + 33 * index

/-- The first position behind those that the edit may change. -/
def stop : Edit → Nat
  | resetDefaults => 9
  | provision => 339
  | replaceEntry index _ => 42 + 33 * index
  | setPrompt index _ => 36 + 33 * index

/-- What the edit writes there. -/
def patch : Edit → Bytes
  | resetDefaults => List.replicate defaultCount 0
  | provision => List.replicate defaultCount 0 ++ standardCarriers.flatMap Entry.form.encode
  | replaceEntry _ entry => Entry.form.encode entry
  | setPrompt _ text => (({} : Entry).withPrompt text).prompt.toList

/-- The edit stays in front of the spare bytes. -/
def Fits (edit : Edit) : Prop := edit.stop ≤ 1098

instance (edit : Edit) : Decidable edit.Fits := inferInstanceAs (Decidable (edit.stop ≤ 1098))

theorem start_add_length_patch (edit : Edit) : edit.start + edit.patch.length = edit.stop := by
  cases edit with
  | resetDefaults => rfl
  | provision =>
    rw [start, patch, stop, ← standardFront, length_standardFront]
  | replaceEntry index entry =>
    rw [start, patch, stop, Entry.form.length_encode]
    change 9 + 33 * index + 33 = _
    omega
  | setPrompt index text =>
    rw [start, patch, stop, Vector.length_toList, promptLength]
    omega

theorem fits_replaceEntry {index : Nat} {entry : Entry} : (replaceEntry index entry).Fits ↔ index < slotCount := by
  rw [Fits, stop, slotCount]
  omega

theorem fits_setPrompt {index : Nat} {text : String} : (setPrompt index text).Fits ↔ index < slotCount := by
  rw [Fits, stop, slotCount]
  omega

section

variable {t : Table} (full : t.carriers.length = slotCount)
include full

/-- **An edit that succeeds is a patch of the payload.** -/
theorem perform_of_fits {edit : Edit} (fits : edit.Fits) :
    ∃ after, edit.perform.run t = (true, after) ∧ after.carriers.length = slotCount ∧
      after.encode = t.encode.overwrite edit.start edit.patch := by
  cases edit with
  | resetDefaults => exact ⟨t.resetDefaults, rfl, full, encode_resetDefaults full⟩
  | provision =>
    refine ⟨t.provision, rfl, ?_, encode_provision full⟩
    rw [Table.provision, List.length_mapIdx, full]
  | replaceEntry index entry =>
    have inside : index < t.carriers.length := by rwa [full, ← fits_replaceEntry]
    refine ⟨{ t with carriers := t.carriers.set index entry }, ?_, ?_, ?_⟩
    · have accepted := run_assignEntry t index entry
      rw [if_neg (by omega)] at accepted
      simp only [perform, StateT.run_bind, accepted]
      rfl
    · rw [List.length_set, full]
    · have whole : Entry.form.encode entry =
          (Entry.form.encode t.carriers[index]).overwrite 0 (Entry.form.encode entry) := by
        rw [Bytes.overwrite_whole]
        rw [Entry.form.length_encode, Entry.form.length_encode]
      have size : 0 + (Entry.form.encode entry).length ≤ Entry.length := by
        rw [Entry.form.length_encode, Nat.zero_add]
        exact Nat.le_refl _
      rw [encode_set full (List.getElem?_eq_getElem inside) size whole]
      rfl
  | setPrompt index text =>
    have inside : index < t.carriers.length := by rwa [full, ← fits_setPrompt]
    refine ⟨{ t with carriers := t.carriers.set index (t.carriers[index].withPrompt text) }, ?_, ?_, ?_⟩
    · have present : t.setPrompt? index text =
          some { t with carriers := t.carriers.set index (t.carriers[index].withPrompt text) } := by
        rw [setPrompt?, List.getElem?_eq_getElem inside]
        rfl
      simp only [perform, StateT.run_bind, StateT.run_get, pure_bind, present]
      rfl
    · rw [List.length_set, full]
    · have size : 7 + (t.carriers[index].withPrompt text).prompt.toList.length ≤ Entry.length := by
        rw [Vector.length_toList]
        decide
      have place : defaultCount + (Entry.length * index + 7) = 16 + 33 * index := by
        change 9 + (33 * index + 7) = _
        omega
      rw [encode_set full (List.getElem?_eq_getElem inside) size (Entry.encode_withPrompt _ text), place]
      rfl

/-- An edit that fails changes nothing. -/
theorem perform_of_not_fits {edit : Edit} (outside : ¬ edit.Fits) : edit.perform.run t = (false, t) := by
  cases edit with
  | resetDefaults => exact absurd (by decide) outside
  | provision => exact absurd (by decide) outside
  | replaceEntry index entry =>
    have beyond : t.carriers.length ≤ index := by rwa [full, ← Nat.not_lt, ← fits_replaceEntry]
    have refused := run_assignEntry t index entry
    rw [if_pos beyond] at refused
    simp only [perform, StateT.run_bind, refused]
    rfl
  | setPrompt index text =>
    have beyond : t.carriers.length ≤ index := by rwa [full, ← Nat.not_lt, ← fits_setPrompt]
    have absent : t.setPrompt? index text = none := by
      rw [setPrompt?, List.getElem?_eq_none beyond]
      rfl
    simp only [perform, StateT.run_bind, StateT.run_get, pure_bind, absent]
    rfl

end

end Edit

/-! Runs of edits. -/

/-- Performs the edits in order, whether they succeed or fail, and says which ones succeeded. -/
def performAll : List Edit → StateM Table (List Edit)
  | [] => return []
  | edit :: edits => do
    let succeeded ← edit.perform
    let later ← performAll edits
    return if succeeded then edit :: later else later

/-- A payload with the patches of the edits, in order. -/
def patched (payload : Bytes) (edits : List Edit) : Bytes :=
  edits.foldl (fun b edit => b.overwrite edit.start edit.patch) payload

section

variable {payload : Bytes} (long : 1098 ≤ payload.length) {edits : List Edit} (fits : ∀ edit ∈ edits, edit.Fits)
include long fits

/-- What none of the edits may change stays as it was. -/
theorem getElem?_patched {pos : Nat} (outside : ∀ edit ∈ edits, ¬ (edit.start ≤ pos ∧ pos < edit.stop)) :
    (patched payload edits)[pos]? = payload[pos]? := by
  rw [patched]
  apply Bytes.getElem?_foldl_overwrite_of_uncovered
  · intro edit hedit
    rw [edit.start_add_length_patch]
    exact Nat.le_trans (fits edit hedit) long
  · intro edit hedit
    rw [edit.start_add_length_patch]
    exact outside edit hedit

theorem drop_patched : (patched payload edits).drop 1098 = payload.drop 1098 := by
  apply List.ext_getElem?
  intro i
  rw [List.getElem?_drop, List.getElem?_drop]
  apply getElem?_patched long fits
  intro edit hedit covered
  have before : edit.stop ≤ 1098 := fits edit hedit
  omega

end

theorem run_performAll_cons {t after : Table} {edit : Edit} {succeeded : Bool}
    (h : edit.perform.run t = (succeeded, after)) (edits : List Edit) :
    (performAll (edit :: edits)).run t =
      (if succeeded then edit :: ((performAll edits).run after).1 else ((performAll edits).run after).1,
        ((performAll edits).run after).2) := by
  simp only [performAll, StateT.run_bind, h]
  rfl

section

variable {t : Table} (full : t.carriers.length = slotCount)
include full

/-- **A run of edits is a run of patches by those that fit.** -/
theorem run_performAll (edits : List Edit) :
    ∃ after, (performAll edits).run t = (edits.filter fun edit => edit.Fits, after) ∧
      after.carriers.length = slotCount ∧ after.encode = patched t.encode (edits.filter fun edit => edit.Fits) := by
  induction edits generalizing t with
  | nil => exact ⟨t, rfl, full, rfl⟩
  | cons edit edits ih =>
    by_cases fits : edit.Fits
    · obtain ⟨next, hnext, fullNext, hpatch⟩ := edit.perform_of_fits full fits
      obtain ⟨after, hafter, fullAfter, hpatches⟩ := ih fullNext
      have keep : (edit :: edits).filter (fun edit => edit.Fits) = edit :: edits.filter fun edit => edit.Fits :=
        List.filter_cons_of_pos (by simpa using fits)
      refine ⟨after, ?_, fullAfter, ?_⟩
      · rw [run_performAll_cons hnext, hafter, keep]
        rfl
      · rw [hpatches, hpatch, keep, patched, patched, List.foldl_cons]
    · obtain ⟨after, hafter, fullAfter, hpatches⟩ := ih full
      have skip : (edit :: edits).filter (fun edit => edit.Fits) = edits.filter fun edit => edit.Fits :=
        List.filter_cons_of_neg (by simpa using fits)
      refine ⟨after, ?_, fullAfter, ?_⟩
      · rw [run_performAll_cons (edit.perform_of_not_fits full fits), hafter, skip]
        rfl
      · rw [hpatches, skip]

/-- The last bytes of a payload are the spare ones. -/
theorem drop_encode : t.encode.drop 1098 = t.spare.toList := by
  have size : (t.defaults.toList ++ t.carriers.flatMap Entry.form.encode).length = 1098 := by
    rw [List.length_append, Vector.length_toList, length_flatMap_rows Entry.form.length_encode, full]
    rfl
  rw [encode_of_full full, ← List.append_assoc, List.drop_left' size]

/-- Replacing an entry fails for a slot that is not there only, and then changes nothing. -/
theorem assignEntry_cases (index : Nat) (entry : Entry) :
    (((assignEntry index entry).run.run t).1 = .ok () ↔ index ≤ 32) ∧
      ∀ e, ((assignEntry index entry).run.run t).1 = .error e → ((assignEntry index entry).run.run t).2 = t := by
  rw [run_assignEntry, full, slotCount]
  by_cases outside : 33 ≤ index
  · rw [if_pos outside]
    refine ⟨⟨fun h => ?_, fun h => by omega⟩, fun _ _ => rfl⟩
    cases h
  · rw [if_neg outside]
    refine ⟨⟨fun _ => by omega, fun _ => rfl⟩, fun e h => ?_⟩
    cases h

end

/-- **Edits stay in place.** However a table that was decoded is edited, it has 33 carriers, is kept whole by its
payload, and the payload differs from the one that was decoded at most where an edit that succeeded may write: the
spare bytes are always as they were. Edits of slots beyond the last fail, and change nothing. -/
theorem edits_stay_in_place {payload : Bytes} (h : payload.length = 1102) :
    ∃ start, (∀ revision, (decode payload revision).result = .ok start) ∧ ∀ edits : List Edit,
      let done := ((performAll edits).run start).1
      let after := ((performAll edits).run start).2
      after.carriers.length = 33 ∧ after.encode.length = 1102 ∧
      (∀ revision, (decode after.encode revision).result = .ok after) ∧
      after.spare.toList = payload.drop 1098 ∧ after.encode.drop 1098 = payload.drop 1098 ∧
      (∀ index entry, ((assignEntry index entry).run.run after).1 = .ok () ↔ index ≤ 32) ∧
      (∀ index entry e, ((assignEntry index entry).run.run after).1 = .error e →
        ((assignEntry index entry).run.run after).2 = after) ∧
      (done = edits.filter fun edit => edit.stop ≤ 1098) ∧
      ∀ pos, (∀ edit ∈ done, ¬ (edit.start ≤ pos ∧ pos < edit.stop)) → after.encode[pos]? = payload[pos]? := by
  have size : payload.length = imageForm.width := h
  let start := ofImage (imageForm.decode payload)
  have read (revision : Revision) : (decode payload revision).result = .ok start := by
    rw [result_decode, if_pos size]
  have whole : start.encode = payload := encode_decode size
  have full : start.carriers.length = slotCount := Vector.length_toList
  refine ⟨start, read, ?_⟩
  intro edits done after
  obtain ⟨last, hrun, fullAfter, hpatches⟩ := run_performAll full edits
  obtain rfl : last = after := (congrArg Prod.snd hrun).symm
  have hdone : done = edits.filter fun edit => edit.Fits := congrArg Prod.fst hrun
  have fits : ∀ edit ∈ done, edit.Fits := by
    intro edit hedit
    rw [hdone] at hedit
    exact of_decide_eq_true (List.mem_filter.1 hedit).2
  have long : 1098 ≤ payload.length := by omega
  have written : after.encode = patched payload done := by rw [hpatches, hdone, whole]
  have spare : after.encode.drop 1098 = payload.drop 1098 := by rw [written, drop_patched long fits]
  refine ⟨fullAfter, length_encode after, decode_encode fullAfter, ?_, spare, ?_, ?_, hdone, ?_⟩
  · rw [← drop_encode fullAfter, spare]
  · intro index entry
    exact (assignEntry_cases fullAfter index entry).1
  · intro index entry
    exact (assignEntry_cases fullAfter index entry).2
  · intro pos outside
    rw [written]
    exact getElem?_patched long fits outside

/-- A prompt that is cut, in the last slot, between an entry that has no slot and the selectors. -/
theorem edits_stay_in_place_last_slot :
    let payload : Bytes := List.replicate 1102 0x41
    let edits : List Edit :=
      [.setPrompt 32 "Überlange Anzeige für Nummer 32", .replaceEntry 33 {}, .resetDefaults]
    payload.length = 1102 ∧
    ∃ start, (decode payload .mtr1).result = .ok start ∧
      ((performAll edits).run start).2.spare.toList = List.replicate 4 0x41 ∧
      ((performAll edits).run start).2.encode[1071]? = some 0x41 ∧
      ((performAll edits).run start).2.encode[1092]? = some 0x41 := by
  intro payload edits
  have size : payload.length = 1102 := List.length_replicate
  obtain ⟨start, read, edited⟩ := edits_stay_in_place size
  obtain ⟨-, -, -, spare, -, -, -, hdone, frame⟩ := edited edits
  refine ⟨size, start, read .mtr1, ?_, ?_, ?_⟩
  · rw [spare, List.drop_replicate]
  · rw [frame 1071 ?_]
    · exact List.getElem?_replicate_of_lt (by decide)
    · rw [hdone]
      decide
  · rw [frame 1092 ?_]
    · exact List.getElem?_replicate_of_lt (by decide)
    · rw [hdone]
      decide

end Table

end Payphone.Carrier
