import Payphone.Card.Table
import Payphone.Proofs.Catalog
import Payphone.Proofs.Layout
import Payphone.Proofs.Rows

/-!
The payload of a card table.

An entry is read and written by the names of its fields. A layout fits entries (`Fits`) if its names are found in
it, its fields have the lengths that entries have for them, and they cover the entry. Both card layouts fit
(`fits_layout`), and under a layout that fits

1. every entry of the right length can be read (`exists_read?`);
2. what is written out is what was read (`write_of_read?`).

So a payload of the right length is read to its end, and the table written out again is the payload.
-/
namespace Payphone.Card

/-! Entries under a layout. -/

/-- Entries can be read and written under the layout, and nothing of their bytes is left over. -/
structure Fits (l : Layout) : Prop where
  /-- No two fields have one name. -/
  named : ∀ f ∈ l.fields, l.field? f.name = some f
  /-- Every field has as many bytes as an entry has for it. -/
  sized : ∀ f ∈ l.fields, ∀ e : Entry, (e.value f.name).length = f.length
  covered : ∀ k < l.entryLength, ∃ f ∈ l.fields, f.Covers k
  panStart : ∃ f, l.field? "pan_start" = some f ∧ f.length = panLength
  panEnd : ∃ f, l.field? "pan_end" = some f ∧ f.length = panLength
  service : ∃ f, l.field? "svc_code" = some f ∧ f.length = serviceLength

theorem fits_layout (revision : Revision) : Fits (layout revision) where
  named := by cases revision <;> decide
  sized := by cases revision <;> simp [layout, basicFields, extensionFields, contiguous, Entry.value]
  covered := by cases revision <;> decide
  panStart := ⟨⟨"pan_start", 0, panLength, 0⟩, by cases revision <;> rfl, rfl⟩
  panEnd := ⟨⟨"pan_end", 3, panLength, 0⟩, by cases revision <;> rfl, rfl⟩
  service := ⟨⟨"svc_code", 11, serviceLength, 0⟩, by cases revision <;> rfl, rfl⟩

namespace Entry

variable {l : Layout} {bytes : Bytes} {e : Entry}

theorem exists_read? (fits : Fits l) (h : bytes.length = l.entryLength) : ∃ e, read? l bytes = some e := by
  obtain ⟨start, hstart, startLength⟩ := fits.panStart
  obtain ⟨stop, hstop, stopLength⟩ := fits.panEnd
  obtain ⟨service, hservice, serviceLength⟩ := fits.service
  obtain ⟨panStart, h1⟩ := Layout.exists_array? hstart startLength h
  obtain ⟨panEnd, h2⟩ := Layout.exists_array? hstop stopLength h
  obtain ⟨standardCode, h3⟩ := Layout.exists_byte? "standard_cd" h
  obtain ⟨verify, h4⟩ := Layout.exists_byte? "vfy_flags" h
  obtain ⟨expiryDate, h5⟩ := Layout.exists_byte? "p_exp_date" h
  obtain ⟨initialDate, h6⟩ := Layout.exists_byte? "p_init_date" h
  obtain ⟨discretionary, h7⟩ := Layout.exists_byte? "p_disc_data" h
  obtain ⟨service, h8⟩ := Layout.exists_array? hservice serviceLength h
  obtain ⟨refNum, h9⟩ := Layout.exists_byte? "ref_num" h
  obtain ⟨carrierRef, h10⟩ := Layout.exists_byte? "carrier_ref" h
  obtain ⟨controlInfo, h11⟩ := Layout.exists_byte? "control_info" h
  obtain ⟨bankInfo, h12⟩ := Layout.exists_byte? "bank_info" h
  obtain ⟨langCode, h13⟩ := Layout.exists_byte? "lang_code" h
  simp only [read?, h1, h2, h3, h4, h5, h6, h7, h8, h9, h10, h11, h12, h13, Option.bind_eq_bind, Option.bind_some]
  exact ⟨_, rfl⟩

/-- Each field of an entry that was read holds its part of the bytes. -/
theorem value_of_read? (h : bytes.length = l.entryLength) (he : read? l bytes = some e) {f : Field}
    (hf : l.field? f.name = some f) (hlen : (e.value f.name).length = f.length) :
    e.value f.name = f.slice bytes := by
  -- what each step of the reader gave
  unfold read? at he
  obtain ⟨panStart, h1, he⟩ := Option.bind_eq_some_iff.1 he
  obtain ⟨panEnd, h2, he⟩ := Option.bind_eq_some_iff.1 he
  obtain ⟨standardCode, h3, he⟩ := Option.bind_eq_some_iff.1 he
  obtain ⟨verify, h4, he⟩ := Option.bind_eq_some_iff.1 he
  obtain ⟨expiryDate, h5, he⟩ := Option.bind_eq_some_iff.1 he
  obtain ⟨initialDate, h6, he⟩ := Option.bind_eq_some_iff.1 he
  obtain ⟨discretionary, h7, he⟩ := Option.bind_eq_some_iff.1 he
  obtain ⟨service, h8, he⟩ := Option.bind_eq_some_iff.1 he
  obtain ⟨refNum, h9, he⟩ := Option.bind_eq_some_iff.1 he
  obtain ⟨carrierRef, h10, he⟩ := Option.bind_eq_some_iff.1 he
  obtain ⟨controlInfo, h11, he⟩ := Option.bind_eq_some_iff.1 he
  obtain ⟨bankInfo, h12, he⟩ := Option.bind_eq_some_iff.1 he
  obtain ⟨langCode, h13, he⟩ := Option.bind_eq_some_iff.1 he
  obtain rfl := Option.some.inj he
  generalize f.name = name at hf hlen
  unfold value at hlen ⊢
  -- one case for each name, and one for a name that no entry has anything for
  split at hlen
  · exact Layout.toList_of_array? h1 hf h
  · exact Layout.toList_of_array? h2 hf h
  · exact Layout.singleton_of_byte? h3 hf h hlen.symm
  · exact Layout.singleton_of_byte? h4 hf h hlen.symm
  · exact Layout.singleton_of_byte? h5 hf h hlen.symm
  · exact Layout.singleton_of_byte? h6 hf h hlen.symm
  · exact Layout.singleton_of_byte? h7 hf h hlen.symm
  · exact Layout.toList_of_array? h8 hf h
  · exact Layout.singleton_of_byte? h9 hf h hlen.symm
  · exact Layout.singleton_of_byte? h10 hf h hlen.symm
  · exact Layout.singleton_of_byte? h11 hf h hlen.symm
  · exact Layout.singleton_of_byte? h12 hf h hlen.symm
  · exact Layout.singleton_of_byte? h13 hf h hlen.symm
  · simp [Field.slice, ← hlen]

theorem length_given (e : Entry) (f : Field) : ((e.value f.name).take f.length).length ≤ f.length := by
  rw [List.length_take]
  omega

theorem length_write (l : Layout) (e : Entry) : (e.write l).length = l.entryLength :=
  Layout.length_assemble (length_given e) l

theorem write_of_read? (fits : Fits l) (h : bytes.length = l.entryLength) (he : read? l bytes = some e) :
    e.write l = bytes := by
  apply List.ext_getElem?
  intro k
  by_cases hk : k < l.entryLength
  · -- the last field that covers the position was read from these bytes, and writes them back
    obtain ⟨f, hf, hcov, hlast⟩ := Layout.exists_lastCovering? (fits.covered k hk)
    have hlen := fits.sized f hf e
    have hvalue := value_of_read? h he (fits.named f hf) hlen
    have hi := hcov.sub_lt
    rw [write, Layout.getElem?_assemble (length_given e) l hk, hlast]
    change (f.pad ((e.value f.name).take f.length))[k - f.offset]? = _
    rw [Field.getElem?_pad hi, List.take_of_length_le (by omega), if_pos (by omega), hvalue,
      Field.getElem?_slice hcov]
  · rw [List.getElem?_eq_none (by rw [length_write]; omega), List.getElem?_eq_none (by omega)]

end Entry

namespace Table

/-! All entries. -/

theorem entryLength_layout_pos (revision : Revision) : 0 < (layout revision).entryLength := by
  cases revision <;> decide

theorem mapM_read? {l : Layout} (fits : Fits l) {parts : List Bytes}
    (h : ∀ part ∈ parts, part.length = l.entryLength) :
    ∃ entries, parts.mapM (Entry.read? l) = some entries ∧ entries.length = parts.length ∧
      entries.flatMap (Entry.write l) = parts.flatten := by
  induction parts with
  | nil => exact ⟨[], rfl, rfl, rfl⟩
  | cons part parts ih =>
    obtain ⟨entries, hread, hcount, hwrite⟩ := ih fun part hpart => h part (List.mem_cons_of_mem _ hpart)
    have hpart := h part List.mem_cons_self
    obtain ⟨e, he⟩ := Entry.exists_read? fits hpart
    refine ⟨e :: entries, ?_, ?_, ?_⟩
    · rw [List.mapM_cons, he, hread]
      rfl
    · rw [List.length_cons, List.length_cons, hcount]
    · rw [List.flatMap_cons, List.flatten_cons, hwrite, Entry.write_of_read? fits hpart he]

/-- Under a layout that fits, a payload of the right length has all its entries, and they are written as they were
read. -/
theorem entries?_of_length {l : Layout} (fits : Fits l) {payload : Bytes} (hpos : 0 < l.entryLength)
    (h : payload.length = l.tableLength) :
    ∃ entries, entries? l payload = some entries ∧ entries.length = l.entryCount ∧
      entries.flatMap (Entry.write l) = payload := by
  obtain ⟨parts, hparts, hcount, hlen, hflat⟩ := Layout.chunks?_of_length hpos h
  obtain ⟨entries, hread, hsame, hwrite⟩ := mapM_read? fits hlen
  refine ⟨entries, ?_, hsame.trans hcount, hwrite.trans hflat⟩
  rw [entries?, hparts, Option.bind_eq_bind, Option.bind_some, List.take_of_length_le (by omega), hread]

/-- A table that has all its entries fills its slots with them. -/
theorem slots_of_length {t : Table} (h : t.entries.length = entryCount t.revision) : t.slots = t.entries := by
  apply List.ext_getElem?
  intro i
  by_cases hi : i < entryCount t.revision
  · simp [slots, List.getElem?_range hi, List.getD_eq_getElem?_getD, List.getElem?_eq_getElem (h ▸ hi)]
  · rw [List.getElem?_eq_none (by simp [slots]; omega), List.getElem?_eq_none (by omega)]

variable {revision : Revision} {payload : Bytes}

theorem exists_entries? (h : payload.length = (layout revision).tableLength) :
    ∃ entries, entries? (layout revision) payload = some entries := by
  obtain ⟨entries, hread, -⟩ := entries?_of_length (fits_layout revision) (entryLength_layout_pos revision) h
  exact ⟨entries, hread⟩

/-- The table in a payload of the right length has all its entries, and they are written as they were read. -/
theorem exists_ofPayload (h : payload.length = (layout revision).tableLength) :
    ∃ entries, ofPayload revision payload = ⟨revision, entries⟩ ∧ entries.length = entryCount revision ∧
      entries.flatMap (Entry.write (layout revision)) = payload := by
  obtain ⟨entries, hread, hcount, hwrite⟩ :=
    entries?_of_length (fits_layout revision) (entryLength_layout_pos revision) h
  refine ⟨entries, ?_, hcount, hwrite⟩
  rw [ofPayload, hread]
  rfl

theorem length_entries_ofPayload (h : payload.length = (layout revision).tableLength) :
    (ofPayload revision payload).entries.length = entryCount revision := by
  obtain ⟨entries, htable, hcount, -⟩ := exists_ofPayload h
  rw [htable]
  exact hcount

theorem encode_ofPayload (h : payload.length = (layout revision).tableLength) :
    (ofPayload revision payload).encode = payload := by
  obtain ⟨entries, htable, hcount, hwrite⟩ := exists_ofPayload h
  calc (ofPayload revision payload).encode
    _ = (⟨revision, entries⟩ : Table).encode := by rw [htable]
    _ = entries.flatMap (Entry.write (layout revision)) := by rw [encode, slots_of_length hcount]
    _ = payload := hwrite

/-- Whatever its entries are, a table fills its payload. -/
theorem length_encode (t : Table) : t.encode.length = (layout t.revision).tableLength := by
  rw [encode, length_flatMap_rows (Entry.length_write (layout t.revision)), slots, List.length_map, List.length_range]
  rfl

theorem expectedSize_eq (revision : Revision) :
    Catalog.expectedSize (Card.tableId revision) revision = .ok (layout revision).tableLength := by
  cases revision <;> rfl

/-- The card tables of the two revisions have different identifiers. -/
theorem eq_of_expectedSize {own revision : Revision} {n : Nat}
    (h : Catalog.expectedSize (Card.tableId own) revision = .ok n) : revision = own := by
  cases own <;> cases revision
  · rfl
  · cases h
  · cases h
  · rfl

/-- A payload is refused for its length only. -/
theorem result_decode (payload : Bytes) (revision : Revision) :
    (decode payload revision).result =
      if payload.length = (layout revision).tableLength then .ok (ofPayload revision payload)
      else .error (.sizeMismatch (Card.tableId revision) (layout revision).tableLength payload.length) := by
  rw [decode, Catalog.result_validate_bind (expectedSize_eq revision)]
  rfl

end Table

end Payphone.Card
