import Payphone.Proofs.Layout
import Payphone.Proofs.Rows

/-!
Remapping between any two layouts, byte by byte.

This file shows that

1. none of the checked accesses fails, so remapping gives a table unless the target's entries are empty
   (`remap?_eq`);
2. a byte of the new table is the byte of the old one that the last covering field names, or a fill byte, or zero
   (`remappedByte?`).
-/
namespace Payphone.Layout

/-! What is given for a field. -/

theorem length_of_entry? {l : Layout} {table entry : Bytes} {i : Nat} (h : l.entry? table i = some entry) :
    entry.length = l.entryLength := by
  unfold entry? at h
  split at h
  · rename_i hb
    have hle := hb.2
    rw [Nat.succ_mul] at hle
    obtain rfl := Option.some.inj h
    simp
    omega
  · cases h

theorem length_given_le (source : Layout) (entry : Option Bytes) (f : Field) :
    (given source entry f).length ≤ f.length := by
  unfold given
  split
  · rw [List.length_take]
    exact Nat.min_le_left _ _
  · exact Nat.zero_le _

theorem given?_eq {source : Layout} {entry : Option Bytes}
    (he : ∀ bytes ∈ entry, bytes.length = source.entryLength) (f : Field) :
    given? source entry f = some (given source entry f) := by
  unfold given? given
  split
  · rename_i bytes g hg
    have hstop := stop_le_entryLength (mem_of_field? hg)
    rw [Bytes.slice?_eq (by rw [he bytes rfl]; exact hstop)]
    rfl
  · rfl

theorem remapEntry?_eq (source target : Layout) {entry : Option Bytes}
    (he : ∀ bytes ∈ entry, bytes.length = source.entryLength) :
    remapEntry? source target entry = some (remapEntry source target entry) := by
  unfold remapEntry?
  simp only [given?_eq he, Option.bind_eq_bind, Option.bind_some]
  exact foldlM_overwrite? (length_given_le source entry) target.fields stop_le_blank

theorem length_remapEntry (source target : Layout) (entry : Option Bytes) :
    (remapEntry source target entry).length = target.entryLength :=
  length_assemble (length_given_le source entry) target

theorem length_remap (table : Bytes) (source target : Layout) :
    (remap table source target).length = target.tableLength := by
  rw [remap, length_flatMap_rows fun i => length_remapEntry source target (source.entry? table i),
    List.length_range, tableLength]

/-- Remapping gives a table, unless it has to divide it into empty entries. -/
theorem remap?_eq (table : Bytes) (source target : Layout) :
    remap? table source target = if target.entryLength = 0 then none else some (remap table source target) := by
  unfold remap? chunkCount?
  by_cases h : target.entryLength = 0
  · rw [if_pos h, if_pos h]
    rfl
  · have count : target.tableLength / target.entryLength = target.entryCount :=
      Nat.mul_div_cancel_left _ (by omega)
    have entries :
        (List.range target.entryCount).mapM (fun i => remapEntry? source target (source.entry? table i)) =
          some ((List.range target.entryCount).map fun i => remapEntry source target (source.entry? table i)) := by
      have each (i : Nat) : remapEntry? source target (source.entry? table i) =
          some (remapEntry source target (source.entry? table i)) :=
        remapEntry?_eq source target fun _ he => length_of_entry? he
      simp only [each]
      exact List.mapM_pure
    rw [if_neg h, if_neg h, count]
    simp only [Option.bind_eq_bind, Option.bind_some, entries]
    rfl

/-! Which byte stands where. -/

/-- Where a table under `source` holds the byte for position `k` of the target field `f` in entry `j`: in the
first field of that name, if the table has that entry to its end and the field reaches that far. -/
def origin? (source : Layout) (table : Bytes) (j : Nat) (f : Field) (k : Nat) : Option Nat := do
  let g ← source.field? f.name
  if j < source.entryCount ∧ (j + 1) * source.entryLength ≤ table.length ∧ k - f.offset < g.length then
    some (j * source.entryLength + g.offset + (k - f.offset))
  else none

/-- Byte `k` of entry `j` of a remapped table. -/
def remappedByte? (table : Bytes) (source target : Layout) (j k : Nat) : Option UInt8 :=
  match target.lastCovering? k with
  | none => some 0
  | some f =>
    match source.origin? table j f k with
    | some p => table[p]?
    | none => some f.fill

/-- What is given for a field, filled up, read at one of its positions. -/
theorem getElem?_pad_given {source : Layout} {table : Bytes} {j k : Nat} {f : Field} (hk : f.Covers k) :
    (f.pad (given source (source.entry? table j) f))[k - f.offset]? =
      match source.origin? table j f k with
      | some p => table[p]?
      | none => some f.fill := by
  have hi := hk.sub_lt
  rw [Field.getElem?_pad hi]
  unfold given origin? entry?
  cases hg : source.field? f.name with
  | none => simp
  | some g =>
    have hstop := stop_le_entryLength (mem_of_field? hg)
    rw [Field.stop] at hstop
    simp only [Option.bind_eq_bind, Option.bind_some]
    by_cases hentry : j < source.entryCount ∧ (j + 1) * source.entryLength ≤ table.length
    · have hend := hentry.2
      rw [Nat.succ_mul] at hend
      have hlen :
          ((g.slice ((table.drop (j * source.entryLength)).take source.entryLength)).take f.length).length =
            min f.length g.length := by
        simp [Field.slice]
        omega
      simp only [if_pos hentry, hlen]
      by_cases hreach : k - f.offset < g.length
      · rw [if_pos (by omega), if_pos ⟨hentry.1, hentry.2, hreach⟩, List.getElem?_take_of_lt hi, Field.slice,
          List.getElem?_take_of_lt hreach, List.getElem?_drop, List.getElem?_take_of_lt (by omega),
          List.getElem?_drop]
        simp only [Nat.add_assoc]
      · rw [if_neg (by omega), if_neg fun h => hreach h.2.2]
    · simp only [if_neg hentry]
      rw [if_neg (by simp), if_neg fun h => hentry ⟨h.1, h.2.1⟩]

theorem getElem?_remapEntry (source target : Layout) (table : Bytes) (j : Nat) {k : Nat}
    (hk : k < target.entryLength) :
    (remapEntry source target (source.entry? table j))[k]? = remappedByte? table source target j k := by
  rw [remapEntry, getElem?_assemble (length_given_le source _) target hk, remappedByte?]
  cases hf : target.lastCovering? k with
  | none => rfl
  | some f => exact getElem?_pad_given (by simpa using List.find?_some hf)

/-- Byte `k` of entry `j` of the new table. -/
theorem getElem?_remap (table : Bytes) (source target : Layout) {j k : Nat} (hj : j < target.entryCount)
    (hk : k < target.entryLength) :
    (remap table source target)[target.entryLength * j + k]? = remappedByte? table source target j k := by
  have rows (i : Nat) := length_remapEntry source target (source.entry? table i)
  rw [remap, getElem?_flatMap_rows rows _ j hk, List.getElem?_range hj]
  exact getElem?_remapEntry source target table j hk

/-- **Remapping is total unless target entries are empty, and every byte is decided.** The new table has its full
length, and byte `k` of entry `j` is what `remappedByte?` says. -/
theorem remapped_bytes_decided (table : Bytes) (source target : Layout) :
    (target.entryLength = 0 → convert? table source target = none) ∧
    (0 < target.entryLength → ∃ out,
      (convert? table source target).map (·.result) = some (.ok out) ∧
      out.length = target.tableLength ∧
      ∀ j k, j < target.entryCount → k < target.entryLength →
        out[j * target.entryLength + k]? = remappedByte? table source target j k) := by
  constructor
  · intro h
    rw [convert?, remap?_eq, if_pos h]
    rfl
  · intro h
    refine ⟨remap table source target, ?_, length_remap table source target, ?_⟩
    · rw [convert?, remap?_eq, if_neg (by omega)]
      rfl
    · intro j k hj hk
      have rows (i : Nat) := length_remapEntry source target (source.entry? table i)
      rw [remap, Nat.mul_comm, getElem?_flatMap_rows rows _ j hk, List.getElem?_range hj]
      exact getElem?_remapEntry source target table j hk

/-- Overlapping fields, a repeated name and a table that ends within its second entry. -/
theorem remapped_bytes_decided_overlapping :
    let source : Layout := ⟨0x10, .mtr1, 2, [⟨"a", 0, 2, 1⟩, ⟨"a", 1, 1, 2⟩]⟩
    let target : Layout := ⟨0x11, .mtr2, 3, [⟨"a", 1, 2, 9⟩, ⟨"b", 2, 2, 7⟩]⟩
    0 < target.entryLength ∧ ∃ out, (convert? [10, 11, 12] source target).map (·.result) = some (.ok out) ∧
      out.length = 12 ∧ out[0]? = some 0 ∧ out[1]? = some 10 ∧ out[2]? = some 7 ∧ out[5]? = some 9 := by
  intro source target
  have hpos : 0 < target.entryLength := by decide
  obtain ⟨out, hout, hlen, hbyte⟩ := (remapped_bytes_decided [10, 11, 12] source target).2 hpos
  refine ⟨hpos, out, hout, hlen, ?_, ?_, ?_, ?_⟩
  · exact (hbyte 0 0 (by decide) (by decide)).trans (by decide)
  · exact (hbyte 0 1 (by decide) (by decide)).trans (by decide)
  · exact (hbyte 0 2 (by decide) (by decide)).trans (by decide)
  · exact (hbyte 1 1 (by decide) (by decide)).trans (by decide)

end Payphone.Layout
