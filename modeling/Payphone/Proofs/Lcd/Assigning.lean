import Payphone.Proofs.Lcd.Slots

/-!
Tables whose area code and packing were assigned without a check.

Nothing looks at the two when they are assigned, so classes may be too large for the packing then and the area code
may have more than three digits. Such a table is encoded all the same, and its payload keeps what there is room for
(`cut`). This file shows that the payload is read as what it keeps, if the last three digits of the area code are an
area code (`detect_encode_cut`), and is refused for its first byte otherwise (`detect_encode_of_low`).
-/
namespace Payphone.Lcd.Table

variable {t : Table}

theorem detect_encode_cut (owned : ownsId t.tableId = true) (area : 200 ≤ t.npa % 1000) :
    (detect t.tableId t.encode).result = .ok t.cut := by
  have hlt : t.npa % 1000 < 1000 := Nat.mod_lt t.npa (by decide)
  rw [result_detect_encode owned]
  exact result_parse (read?_encode_cut ⟨area, by omega⟩)

theorem detect_encode_of_low (owned : ownsId t.tableId = true) (low : t.npa % 1000 < 200) :
    ∃ first rest, t.encode = first :: rest ∧ (detect t.tableId t.encode).result =
      .error (.invalidField "NPA" s!"first byte 0x{Text.hexByte first} outside 200-999") := by
  obtain ⟨packed, -, -, -, hencode⟩ := t.encode_eq
  obtain ⟨first, second, hheader, hdecode⟩ := AreaCode.decode_encode_of_low low
  rw [hheader, List.cons_append, List.singleton_append] at hencode
  refine ⟨first, second :: packed, hencode, ?_⟩
  rw [result_detect_encode owned, hencode]
  apply result_parse
  rw [read?_cons, hdecode]
  rfl

/-- **Assigned fields are cut when the table is encoded, each by itself.** Whatever is assigned to area code and packing
of a table, encoding finds a place for every class, and the payload has the length of the packing. If the last three
digits of the area code are at least 200, the payload is read as a table with these digits, the packing, and every
class modulo the number of classes of the packing. Otherwise it is refused for its area code. -/
theorem assigned_fields_are_cut (h : Reachable t) (packing : Packing) (npa : Nat) :
    let u : Table := { t with packing, npa }
    (∃ packed, packing.pack? (exchangeCount / packing.perByte) t.classes.toList = some packed ∧
      u.encode = AreaCode.encode npa ++ packed) ∧
    u.encode.length = packing.payloadLength ∧
    (200 ≤ npa % 1000 → ∃ v, (detect t.tableId u.encode).result = .ok v ∧
      v.tableId = t.tableId ∧ v.npa = npa % 1000 ∧ v.packing = packing ∧
      ∀ nxx, v.classOf? nxx =
        (t.classOf? nxx).map fun c => UInt8.ofNat (c.toNat % (packing.maxClass.toNat + 1))) ∧
    (npa % 1000 < 200 → ∃ first rest, u.encode = first :: rest ∧ (detect t.tableId u.encode).result =
      .error (.invalidField "NPA" s!"first byte 0x{Text.hexByte first} outside 200-999")) := by
  intro u
  have owned : ownsId u.tableId = true := h.wellFormed.owned
  obtain ⟨packed, hpack, -, -, hencode⟩ := u.encode_eq
  refine ⟨⟨packed, hpack, hencode⟩, length_encode u, ?_, detect_encode_of_low owned⟩
  intro area
  refine ⟨u.cut, detect_encode_cut owned area, rfl, rfl, rfl, ?_⟩
  intro nxx
  rw [Packing.toNat_maxClass]
  exact classOf?_map rfl nxx

/-- Class 203 in the packing with four classes, under an area code of five digits and under one that is too small. -/
theorem assigned_fields_are_cut_wide :
    ∃ start t, Table.new 0x88 408 .uncompressed = .ok start ∧ start.setClass 555 203 = .ok t ∧ Reachable t ∧
      (∃ v, (detect t.tableId { t with packing := .doubleCompressed, npa := 65212 }.encode).result = .ok v ∧
        v.npa = 212 ∧ v.packing = .doubleCompressed ∧ v.classOf? 555 = some 3) ∧
      ∃ first rest, { t with packing := .doubleCompressed, npa := 2199 }.encode = first :: rest ∧
        (detect t.tableId { t with packing := .doubleCompressed, npa := 2199 }.encode).result =
          .error (.invalidField "NPA" s!"first byte 0x{Text.hexByte first} outside 200-999") := by
  have made : Table.new 0x88 408 .uncompressed =
      .ok ⟨0x88, 408, .uncompressed, Vector.replicate exchangeCount 0⟩ := rfl
  obtain ⟨t, ht⟩ := (exists_setClass_iff ⟨0x88, 408, .uncompressed, Vector.replicate exchangeCount 0⟩ 555 203).2
    (by decide)
  have reached := (Reachable.new made).setClass ht
  obtain ⟨-, -, read, -⟩ := assigned_fields_are_cut reached .doubleCompressed 65212
  obtain ⟨v, hv, -, area, packing, classes⟩ := read (by decide)
  obtain ⟨-, -, -, refused⟩ := assigned_fields_are_cut reached .doubleCompressed 2199
  refine ⟨_, t, made, ht, reached, ⟨v, hv, area, packing, ?_⟩, refused (by decide)⟩
  rw [classes, classOf?_setClass ht, if_pos rfl]
  rfl

end Payphone.Lcd.Table
