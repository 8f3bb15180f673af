import Payphone.Checksum
import Payphone.Proofs.Decoding
import Payphone.Proofs.Lcd.Editing

/-!
Tables that their payload gives back.

1. The payload of any table has one of seven lengths, and none of these is another one and a trailer
   (`length_encode_mem`, `add_trailer_not_mem`).
2. A table that its payload gives back in one revision is given back in every revision whose payloads have that length,
   and so are the tables of local call determination that edits can reach (`decodeAs_encode`).
-/
namespace Payphone.TableKind

variable {k : TableKind} {t : k.Table}

/-! Lengths. -/

/-- The lengths of the payloads of all tables. -/
def payloadLengths : List Nat := [45, 202, 402, 660, 802, 1102, 1152]

theorem length_encode_mem (k : TableKind) (t : k.Table) : (TableType.encode t).length ∈ payloadLengths := by
  cases k with
  | carrier =>
    have len : (Carrier.Table.encode t).length = 1102 := Carrier.Table.imageForm.length_encode _
    exact len ▸ (by decide : 1102 ∈ payloadLengths)
  | card =>
    have len : (Card.Table.encode t).length = (Card.layout t.revision).tableLength := Card.Table.length_encode t
    have mem (revision : Revision) : (Card.layout revision).tableLength ∈ payloadLengths := by
      cases revision <;> decide
    exact len ▸ mem t.revision
  | install =>
    have len : (Install.Parameters.encode t).length = 45 := (FixedWidth.bytes Install.payloadLength).length_encode _
    exact len ▸ (by decide : 45 ∈ payloadLengths)
  | lcd =>
    have len : (Lcd.Table.encode t).length = t.packing.payloadLength := Lcd.Table.length_encode t
    have mem (packing : Lcd.Packing) : packing.payloadLength ∈ payloadLengths := by
      cases packing <;> decide
    exact len ▸ mem t.packing

/-- No payload with its trailer is as long as another payload. -/
theorem add_trailer_not_mem {n : Nat} (h : n ∈ payloadLengths) : n + Checksum.trailerLength ∉ payloadLengths := by
  have apart : ∀ n ∈ payloadLengths, n + Checksum.trailerLength ∉ payloadLengths := by decide
  exact apart n h

/-! Tables that are given back. -/

/-- The table is one that the operations on tables of its kind can reach. -/
def Edited : (k : TableKind) → k.Table → Prop
  | lcd, t => Lcd.Table.Reachable t
  | _, _ => False

/-- The payload is decoded to the table in some revision, or the table was reached by edits. -/
def Restorable (k : TableKind) (t : k.Table) : Prop :=
  (∃ revision, (TableType.decodeAs (TableType.tableId t) (TableType.encode t) revision).result = .ok t) ∨ k.Edited t

theorem wellFormed_of_restorable {t : lcd.Table} (h : lcd.Restorable t) : Lcd.Table.WellFormed t := by
  rcases h with ⟨revision, h⟩ | h
  · exact Lcd.Table.wellFormed_decodeAs h
  · exact Lcd.Table.Reachable.wellFormed h

theorem lists_of_restorable (h : k.Restorable t) : Catalog.Lists (TableType.tableId t) := by
  rcases h with ⟨revision, h⟩ | h
  · have accepted := (k.outcome_decodeAs _ _ revision).ok_iff.1 ⟨t, h⟩
    exact Catalog.lists_of_expectedSize accepted.2.1
  · cases k with
    | lcd => exact Lcd.Table.lists_of_ownsId (Lcd.Table.Reachable.wellFormed h).owned
    | carrier => exact h.elim
    | card => exact h.elim
    | install => exact h.elim

/-- Decoding under an identifier gives the same in two revisions in which payloads are read in the same way. -/
theorem decodeOwn_congr {T : Type} [TableType T] {own : UInt8} {revision revision' : Revision}
    (x : Exact T own revision) (x' : Exact T own revision') (size : x.size = x'.size) (table : x.table = x'.table)
    {id : UInt8} (listed : Catalog.Lists id) (payload : Bytes) :
    (decodeOwn (T := T) TableType.decode TableType.tableId id payload revision).result =
      (decodeOwn (T := T) TableType.decode TableType.tableId id payload revision').result := by
  rw [result_decodeOwn x listed, result_decodeOwn x' listed, size, table]

/-- **A table is given back in every revision with payloads of its length.** -/
theorem decodeAs_encode (h : k.Restorable t) {revision : Revision}
    (size : Catalog.expectedSize (TableType.tableId t) revision = .ok (TableType.encode t).length) :
    (TableType.decodeAs (TableType.tableId t) (TableType.encode t) revision).result = .ok t := by
  have listed := lists_of_restorable h
  cases k with
  | carrier =>
    obtain ⟨read, hread⟩ := h.resolve_right id
    exact (decodeOwn_congr (exactCarrier revision) (exactCarrier read) rfl rfl listed _).trans hread
  | install =>
    obtain ⟨read, hread⟩ := h.resolve_right id
    exact (decodeOwn_congr (exactInstall revision) (exactInstall read) rfl rfl listed _).trans hread
  | card =>
    -- no identifier of a card table is listed in both revisions
    obtain ⟨read, hread⟩ := h.resolve_right id
    have accepted := (card.outcome_decodeAs _ _ read).ok_iff.1 ⟨t, hread⟩
    obtain rfl : revision = t.revision := Card.Table.eq_of_expectedSize size
    obtain rfl : read = t.revision := Card.Table.eq_of_expectedSize accepted.2.1
    exact hread
  | lcd =>
    have whole := wellFormed_of_restorable h
    have expected := Lcd.Table.expectedSize_of_ownsId whole.owned revision
    have same : (Lcd.Packing.ofRevision revision).payloadLength = t.packing.payloadLength :=
      Except.ok.inj (expected.symm.trans (size.trans (congrArg Except.ok (Lcd.Table.length_encode t))))
    exact Lcd.Table.decodeAs_encode whole (Lcd.Packing.payloadLength_injective same).symm

end Payphone.TableKind
