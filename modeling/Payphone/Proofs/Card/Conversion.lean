import Payphone.Proofs.Card.Chain
import Payphone.Proofs.Card.Fields

/-!
Card tables from one revision to another, entry by entry.

A table is converted by way of its payload, so it loses what the payload of either revision has no place for. This
file shows that

1. one entry is remapped to what its revision keeps of it, written under the other one (`remapEntry_write`);
2. so a payload that is converted holds the entries one by one (`remap_encode`), and reading it gives the converted
   table (`result_convert`), whatever the entries of the table in memory are and however many;
3. converting the table and converting its payload come to the same (`conversions_agree`).
-/
namespace Payphone.Card

/-! Entries. -/

namespace Entry

/-- A field is filled with zeros where it is given none, as an entry of zeros fills it. -/
theorem pad_blank (revision : Revision) : ∀ f ∈ (layout revision).fields,
    f.pad [] = f.pad ((({} : Entry).value f.name).take f.length) := by
  cases revision <;> decide

/-- An entry remapped is what its revision keeps of it. -/
theorem remapEntry_write (source target : Revision) (e : Entry) :
    Layout.remapEntry (layout source) (layout target) (some (e.write (layout source))) =
      (e.under source).write (layout target) := by
  apply List.foldl_ext
  intro out f hf
  congr 1
  -- the source has the field, and gives what the entry has for it, or it has not, and gives nothing
  rcases (aligned_layout source target).shared f hf with hsame | ⟨habsent, -⟩
  · have hmem := Layout.mem_of_field? hsame
    simp only [Layout.given, hsame, slice_write hmem, value_under hmem]
  · simp only [Layout.given, habsent, value_under_of_absent hf habsent, pad_blank target f hf]

/-- Where the source has no entry, there is one of zeros. -/
theorem remapEntry_none (source target : Revision) :
    Layout.remapEntry (layout source) (layout target) none = ({} : Entry).write (layout target) := by
  apply List.foldl_ext
  intro out f hf
  congr 1
  exact pad_blank target f hf

end Entry

/-! Tables. -/

namespace Table

theorem length_slots (t : Table) : t.slots.length = entryCount t.revision := by
  rw [slots, List.length_map, List.length_range]

theorem getElem?_slots (t : Table) {i : Nat} (hi : i < entryCount t.revision) :
    t.slots[i]? = some (t.entries.getD i {}) := by
  rw [slots, List.getElem?_map, List.getElem?_range hi, Option.map_some]

/-- The payload of entries, written under a revision, is read as what the revision keeps of them. -/
theorem ofPayload_flatMap_write {revision : Revision} {entries : List Entry}
    (count : entries.length = entryCount revision) :
    ofPayload revision (entries.flatMap (Entry.write (layout revision))) =
      ⟨revision, entries.map (Entry.under revision)⟩ := by
  have parts := Layout.chunks?_flatMap (Entry.length_write (layout revision)) (entryLength_layout_pos revision) entries
  have whole : ((entries.map (Entry.write (layout revision))).take (layout revision).entryCount) =
      entries.map (Entry.write (layout revision)) := by
    apply List.take_of_length_le
    rw [List.length_map, count]
    exact Nat.le_refl _
  have read : (entries.map (Entry.write (layout revision))).mapM (Entry.read? (layout revision)) =
      some (entries.map (Entry.under revision)) := by
    rw [List.mapM_map]
    simp only [Function.comp_def, Entry.read?_write]
    exact List.mapM_pure
  rw [ofPayload, entries?, parts, Option.bind_eq_bind, Option.bind_some, whole, read, Option.getD_some]

/-- What is carried over into slot `i` of another revision. -/
def carried (t : Table) (i : Nat) : Entry :=
  if i < entryCount t.revision then (t.entries.getD i {}).under t.revision else {}

/-- A payload that is converted holds what is carried over, slot by slot. -/
theorem remap_encode (t : Table) (revision : Revision) :
    Layout.remap t.encode (layout t.revision) (layout revision) =
      ((List.range (entryCount revision)).map t.carried).flatMap (Entry.write (layout revision)) := by
  rw [List.flatMap_map]
  apply List.flatMap_congr
  intro i _
  have entry := Layout.entry?_flatMap (Entry.length_write (layout t.revision)) (length_slots t) i
  rw [encode, entry, carried]
  by_cases hi : i < entryCount t.revision
  · rw [if_pos hi, getElem?_slots t hi, Option.map_some, Entry.remapEntry_write]
  · rw [if_neg hi, List.getElem?_eq_none (by rw [length_slots]; omega), Option.map_none, Entry.remapEntry_none]

theorem ofPayload_remap_encode (t : Table) (revision : Revision) :
    ofPayload revision (Layout.remap t.encode (layout t.revision) (layout revision)) =
      ⟨revision, (List.range (entryCount revision)).map fun i => (t.carried i).under revision⟩ := by
  have count : ((List.range (entryCount revision)).map t.carried).length = entryCount revision := by
    rw [List.length_map, List.length_range]
  rw [remap_encode, ofPayload_flatMap_write count, List.map_map]
  rfl

theorem result_convert (t : Table) (revision : Revision) :
    (t.convert revision).result =
      .ok ⟨revision, (List.range (entryCount revision)).map fun i => (t.carried i).under revision⟩ :=
  congrArg Except.ok (ofPayload_remap_encode t revision)

theorem carried_of_getElem? {t : Table} {i : Nat} {e : Entry} (he : t.entries[i]? = some e)
    (hi : i < entryCount t.revision) : t.carried i = e.under t.revision := by
  rw [carried, if_pos hi, List.getD_eq_getElem?_getD, he, Option.getD_some]

theorem carried_of_absent {t : Table} {i : Nat} (h : t.entries.length ≤ i ∨ entryCount t.revision ≤ i) :
    t.carried i = {} := by
  by_cases hi : i < entryCount t.revision
  · have hnone : t.entries[i]? = none := List.getElem?_eq_none (by omega)
    rw [carried, if_pos hi, List.getD_eq_getElem?_getD, hnone, Option.getD_none, Entry.under_blank]
  · rw [carried, if_neg hi]

/-- **Converting a table and converting its payload come to the same.** Whatever the entries of a table are and
however many it has, its conversion has the entries of the other revision: those that the table has and both
revisions have a slot for, without the extension unless both have a place for it, and entries of zeros otherwise. Its
payload is the converted payload of the table. Converting to the table's own revision is writing it and reading it
again. -/
theorem conversions_agree (t : Table) (revision : Revision) :
    ∃ u, (t.convert revision).result = .ok u ∧ u.revision = revision ∧
      u.entries.length = (layout revision).entryCount ∧
      (∀ i e, t.entries[i]? = some e → i < (layout t.revision).entryCount → i < (layout revision).entryCount →
        u.entries[i]? = some (if t.revision = .mtr2 ∧ revision = .mtr2 then e
          else { e with controlInfo := 0, bankInfo := 0, langCode := 0 })) ∧
      (∀ i < (layout revision).entryCount, t.entries.length ≤ i ∨ (layout t.revision).entryCount ≤ i →
        u.entries[i]? = some ({} : Entry)) ∧
      (convertPayload t.encode t.revision revision).result = .ok u.encode ∧
      (revision = t.revision → (decode t.encode revision).result = .ok u) := by
  have read (i : Nat) (hi : i < entryCount revision) :
      ((List.range (entryCount revision)).map fun i => (t.carried i).under revision)[i]? =
        some ((t.carried i).under revision) := by
    rw [List.getElem?_map, List.getElem?_range hi, Option.map_some]
  refine ⟨_, result_convert t revision, rfl, ?_, ?_, ?_, ?_, ?_⟩
  · rw [List.length_map, List.length_range]
    rfl
  · intro i e he hsource htarget
    rw [read i htarget, carried_of_getElem? he hsource]
    cases t.revision <;> cases revision <;> rfl
  · intro i hi absent
    rw [read i hi, carried_of_absent absent, Entry.under_blank]
  · have payload := Layout.length_remap t.encode (layout t.revision) (layout revision)
    rw [result_convertPayload, if_pos (length_encode t), ← ofPayload_remap_encode, encode_ofPayload payload]
  · rintro rfl
    have payload := length_encode t
    rw [result_decode, if_pos payload, ← ofPayload_remap_encode, Layout.remap_self (aligned_layout _ _) payload]

/-- A table with too many entries for its revision, which have an extension that its revision has no place for. -/
theorem conversions_agree_overfull :
    let t : Table := ⟨.mtr1, List.replicate 25 { standardCode := 7, langCode := 2 }⟩
    (∃ u, (t.convert .mtr2).result = .ok u ∧ u.entries[19]? = some { standardCode := 7 } ∧
      u.entries[20]? = some ({} : Entry) ∧ (convertPayload t.encode .mtr1 .mtr2).result = .ok u.encode) ∧
    ∃ u, (t.convert .mtr1).result = .ok u ∧ (decode t.encode .mtr1).result = .ok u := by
  intro t
  constructor
  · obtain ⟨u, hu, -, -, kept, absent, payload, -⟩ := conversions_agree t .mtr2
    refine ⟨u, hu, ?_, absent 20 (by decide) (.inr (by decide)), payload⟩
    exact kept 19 _ (List.getElem?_replicate_of_lt (by decide)) (by decide) (by decide)
  · obtain ⟨u, hu, -, -, -, -, -, own⟩ := conversions_agree t .mtr1
    exact ⟨u, hu, own rfl⟩

end Table

end Payphone.Card
