import Payphone.Carrier.Table
import Payphone.Proofs.Catalog
import Payphone.Proofs.Reader

/-!
The payload of a carrier table.

The reader takes the fields of an entry, and the parts of a table, in the order of their form (`reads_entry`,
`reads_table`). So a payload of the right length is always read to its end, and the table written out again is the
payload (`encode_decode`). The other way round, a table that is written out and read again has the carriers that fill
the slots, however many it had (`result_decode_encode`).
-/
namespace Payphone.Carrier

open FixedWidth
open Reader (Reads reads_value)

theorem reads_entry : Reads Entry.read Entry.form id := by
  have fields : Reads Entry.read (byte.pair (word.pair (long.pair ((bytes promptLength).pair
      (byte.pair (byte.pair (word.pair (byte.pair byte)))))))) fun x =>
      ⟨x.1, x.2.1, x.2.2.1, x.2.2.2.1, x.2.2.2.2.1, x.2.2.2.2.2.1, x.2.2.2.2.2.2.1, x.2.2.2.2.2.2.2.1,
        x.2.2.2.2.2.2.2.2⟩ := by
    refine (reads_value byte).bind fun carrierRef => ?_
    refine (reads_value word).bind fun number => ?_
    refine (reads_value long).bind fun validCards => ?_
    refine (reads_value (bytes promptLength)).bind fun prompt => ?_
    refine (reads_value byte).bind fun control2 => ?_
    refine (reads_value byte).bind fun control => ?_
    refine (reads_value word).bind fun fgbTimer => ?_
    refine (reads_value byte).bind fun internationalAccept => ?_
    exact (reads_value byte).map _
  exact fields

namespace Table

/-- The table that a payload holds. -/
def ofImage (image : Image) : Table := ⟨image.1, image.2.1.toList, image.2.2⟩

theorem reads_table : Reads read imageForm ofImage := by
  refine (reads_value (bytes defaultCount)).bind fun defaults => ?_
  refine (reads_entry.count slotCount).bind fun carriers => ?_
  exact (reads_value (bytes spareLength)).map _

theorem slots_ofImage (image : Image) : (ofImage image).slots = image.2.1 := by
  apply Vector.ext
  intro i hi
  simp [slots, ofImage, List.getD_eq_getElem?_getD]

theorem encode_ofImage (image : Image) : (ofImage image).encode = imageForm.encode image := by
  rw [encode, toImage, slots_ofImage]
  rfl

theorem read_of_length {payload : Bytes} (h : payload.length = imageForm.width) :
    read payload = .ok (ofImage (imageForm.decode payload), []) := by
  rw [(reads_table payload).1 (by omega), List.take_of_length_le (by omega), List.drop_eq_nil_of_le (by omega)]

theorem expectedSize_eq (revision : Revision) :
    Catalog.expectedSize TableId.carrier revision = .ok imageForm.width := by
  cases revision <;> rfl

/-- A payload is refused for its length only. -/
theorem result_decode (payload : Bytes) (revision : Revision) :
    (decode payload revision).result =
      if payload.length = imageForm.width then .ok (ofImage (imageForm.decode payload))
      else .error (.sizeMismatch TableId.carrier imageForm.width payload.length) := by
  rw [decode, Catalog.result_validate_bind (expectedSize_eq revision)]
  by_cases h : payload.length = imageForm.width
  · rw [if_pos h, if_pos h, StateT.run, read_of_length h]
    rfl
  · rw [if_neg h, if_neg h]

theorem length_encode (t : Table) : t.encode.length = imageForm.width := imageForm.length_encode t.toImage

theorem encode_decode {payload : Bytes} (h : payload.length = imageForm.width) :
    (ofImage (imageForm.decode payload)).encode = payload := by
  rw [encode_ofImage, imageForm.encode_decode payload h]

/-! Any number of carriers. -/

/-- The slots are the first carriers, and entries of zeros where there are too few. -/
theorem toList_slots (t : Table) :
    t.slots.toList = t.carriers.take slotCount ++ List.replicate (slotCount - t.carriers.length) ({} : Entry) := by
  apply List.ext_getElem
  · rw [Vector.length_toList, List.length_append, List.length_take, List.length_replicate]
    omega
  · intro i hi hi'
    rw [Vector.length_toList] at hi
    by_cases h : i < t.carriers.length
    · rw [List.getElem_append_left (by rw [List.length_take]; omega)]
      simp [slots, h]
    · rw [List.getElem_append_right (by rw [List.length_take]; omega)]
      simp [slots, h]

/-- A payload keeps of a table what fills its slots. -/
theorem result_decode_encode (t : Table) (revision : Revision) :
    (decode t.encode revision).result = .ok { t with carriers := t.slots.toList } := by
  rw [result_decode, if_pos (length_encode t), encode, imageForm.decode_encode]
  rfl

end Table

end Payphone.Carrier
