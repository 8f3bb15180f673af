import Payphone.Proofs.Carrier.Editing

/-!
Replaced entries, in tables with any number of carriers.

A replacement is bounded by the carriers that the table has in memory (`replaceEntry_eq_ok_iff`), a payload by its
slots. This file shows that

1. replacing an entry replaces what fills its slot, if there is such a slot, and nothing else (`toList_slots_set`);
2. so a replacement within the slots is read back from the payload, and one behind them is lost though it was accepted
   (`replacements_reach_slots`, `replacement_behind_slots_lost`).
-/
namespace Payphone.Carrier.Table

variable {t u : Table} {index : Nat} {entry : Entry}

theorem replaceEntry_eq (t : Table) (index : Nat) (entry : Entry) :
    t.replaceEntry index entry =
      if t.carriers.length ≤ index then
        .error (.invalidField "carrier index" s!"{Text.decimal index} outside 0-{Text.decimal (slotCount - 1)}")
      else .ok { t with carriers := t.carriers.set index entry } := by
  rw [replaceEntry, run_assignEntry]
  by_cases outside : t.carriers.length ≤ index
  · rw [if_pos outside, if_pos outside]
    rfl
  · rw [if_neg outside, if_neg outside]
    rfl

theorem replaceEntry_eq_ok_iff :
    t.replaceEntry index entry = .ok u ↔
      index < t.carriers.length ∧ u = { t with carriers := t.carriers.set index entry } := by
  rw [replaceEntry_eq]
  by_cases outside : t.carriers.length ≤ index
  · rw [if_pos outside]
    constructor
    · intro h
      cases h
    · rintro ⟨inside, -⟩
      omega
  · rw [if_neg outside]
    constructor
    · intro h
      exact ⟨by omega, (Except.ok.inj h).symm⟩
    · rintro ⟨-, rfl⟩
      rfl

/-- A refusal names the index and leaves the table as it was. -/
theorem assignEntry_of_error {e : TableError} (h : ((assignEntry index entry).run.run t).1 = .error e) :
    t.carriers.length ≤ index ∧
      e = .invalidField "carrier index" s!"{Text.decimal index} outside 0-{Text.decimal (slotCount - 1)}" ∧
      ((assignEntry index entry).run.run t).2 = t := by
  rw [run_assignEntry] at h ⊢
  by_cases outside : t.carriers.length ≤ index
  · rw [if_pos outside] at h ⊢
    exact ⟨outside, (Except.error.inj h).symm, rfl⟩
  · rw [if_neg outside] at h
    cases h

/-- What fills the slots after a replacement; an index behind the slots replaces none of them. -/
theorem toList_slots_set (inside : index < t.carriers.length) :
    (slots { t with carriers := t.carriers.set index entry }).toList = t.slots.toList.set index entry := by
  rw [toList_slots, toList_slots, List.length_set, List.take_set]
  by_cases within : index < slotCount
  · have front : index < (t.carriers.take slotCount).length := by
      rw [List.length_take]
      omega
    rw [List.set_append_left _ _ front]
  · have none : slotCount - t.carriers.length = 0 := by omega
    rw [none, List.replicate_zero, List.append_nil, List.append_nil]

/-- The payload is read as the table that it held before, with the entry in its slot. -/
theorem decode_encode_replaceEntry (h : t.replaceEntry index entry = .ok u) (revision : Revision) :
    ∃ before, (decode t.encode revision).result = .ok before ∧ before.carriers.length = slotCount ∧
      (decode u.encode revision).result = .ok { before with carriers := before.carriers.set index entry } := by
  obtain ⟨inside, rfl⟩ := replaceEntry_eq_ok_iff.1 h
  have hbefore := result_decode_encode t revision
  have hafter := result_decode_encode { t with carriers := t.carriers.set index entry } revision
  have full : t.slots.toList.length = slotCount := Vector.length_toList
  rw [toList_slots_set inside] at hafter
  -- what the slots are does not matter any more, and it must not be computed
  generalize t.slots.toList = filled at hbefore hafter full
  exact ⟨{ t with carriers := filled }, hbefore, full, hafter⟩

/-- A payload has no place for a carrier behind its slots. -/
theorem encode_replaceEntry_of_le (h : t.replaceEntry index entry = .ok u) (behind : slotCount ≤ index) :
    u.encode = t.encode := by
  obtain ⟨inside, rfl⟩ := replaceEntry_eq_ok_iff.1 h
  have same : slots { t with carriers := t.carriers.set index entry } = t.slots := by
    apply Vector.toList_inj.1
    rw [toList_slots_set inside, List.set_eq_of_length_le]
    rwa [Vector.length_toList]
  rw [encode, toImage, same, encode, toImage]

/-- **A replacement within the slots of a payload is never lost.** A replacement is accepted exactly if the table has a
carrier with this index. The payload of the edited table is then read as the table that the payload held before, with
the entry in its slot; an index of 33 or more has no slot, so the payload does not change and the entry is lost. A
replacement that is refused leaves the table as it was. -/
theorem replacements_reach_slots (t : Table) (index : Nat) (entry : Entry) :
    ((∃ u, t.replaceEntry index entry = .ok u) ↔ index < t.carriers.length) ∧
    (∀ u, t.replaceEntry index entry = .ok u →
      (∀ revision, ∃ before, (decode t.encode revision).result = .ok before ∧
        (decode u.encode revision).result = .ok { before with carriers := before.carriers.set index entry } ∧
        (index < 33 → (before.carriers.set index entry)[index]? = some entry)) ∧
      (33 ≤ index → u.encode = t.encode)) ∧
    ∀ e, ((assignEntry index entry).run.run t).1 = .error e →
      e = .invalidField "carrier index" s!"{Text.decimal index} outside 0-{Text.decimal 32}" ∧
      ((assignEntry index entry).run.run t).2 = t := by
  refine ⟨?_, ?_, ?_⟩
  · simp only [replaceEntry_eq_ok_iff, exists_and_left, exists_eq, and_true]
  · intro u h
    refine ⟨?_, encode_replaceEntry_of_le h⟩
    intro revision
    obtain ⟨before, hbefore, full, hafter⟩ := decode_encode_replaceEntry h revision
    refine ⟨before, hbefore, hafter, ?_⟩
    intro within
    exact List.getElem?_set_self (by rwa [full])
  · intro e refused
    exact (assignEntry_of_error refused).2

/-- Of thirty-four carriers the third one, the last one, and the index behind it. -/
theorem replacements_reach_slots_overfull :
    let t : Table := { carriers := (List.range 34).map fun i => { carrierRef := UInt8.ofNat i } }
    let entry : Entry := { carrierRef := 77 }
    (∃ u before, t.replaceEntry 2 entry = .ok u ∧ (decode t.encode .mtr2).result = .ok before ∧
      (decode u.encode .mtr2).result = .ok { before with carriers := before.carriers.set 2 entry } ∧
      (before.carriers.set 2 entry)[2]? = some entry) ∧
    (∃ u, t.replaceEntry 33 entry = .ok u ∧ u.encode = t.encode) ∧
    ((assignEntry 34 entry).run.run t).2 = t := by
  intro t entry
  obtain ⟨accepts, kept, -⟩ := replacements_reach_slots t 2 entry
  obtain ⟨acceptsLast, lost, -⟩ := replacements_reach_slots t 33 entry
  obtain ⟨-, -, refused⟩ := replacements_reach_slots t 34 entry
  obtain ⟨u, hu⟩ := accepts.2 (by decide)
  obtain ⟨before, hbefore, hafter, found⟩ := (kept u hu).1 .mtr2
  obtain ⟨w, hw⟩ := acceptsLast.2 (by decide)
  exact ⟨⟨u, before, hu, hbefore, hafter, found (by decide)⟩, ⟨w, hw, (lost w hw).2 (by decide)⟩, (refused _ rfl).2⟩

/-- The last of thirty-four carriers is replaced, and the payload does not have the new entry. -/
theorem replacement_behind_slots_lost :
    let t : Table := { carriers := List.replicate 34 {} }
    let entry : Entry := { carrierRef := 7 }
    ∃ u, t.replaceEntry 33 entry = .ok u ∧ u.carriers[33]? = some entry ∧ u.encode = t.encode ∧
      ∀ revision, ∃ after, (decode u.encode revision).result = .ok after ∧ after.carriers[33]? = none := by
  intro t entry
  have accepted : t.replaceEntry 33 entry = .ok { t with carriers := t.carriers.set 33 entry } :=
    replaceEntry_eq_ok_iff.2 ⟨by decide, rfl⟩
  refine ⟨_, accepted, by decide, encode_replaceEntry_of_le accepted (by decide), ?_⟩
  intro revision
  obtain ⟨before, -, full, hafter⟩ := decode_encode_replaceEntry accepted revision
  refine ⟨_, hafter, List.getElem?_eq_none ?_⟩
  rw [List.length_set, full]
  decide

end Payphone.Carrier.Table
