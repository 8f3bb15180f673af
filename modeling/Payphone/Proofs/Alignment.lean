import Payphone.Proofs.Remapping

/-!
Layouts that agree on the places of their fields.

Two layouts are aligned if the fields that both have stand at the same place, and the fields that only the target has
stand behind the entries of the source (`Aligned`). This file shows that

1. remapping between such layouts copies every byte that has a place in both, and leaves zeros elsewhere
   (`getElem?_remap_of_aligned`);
2. tables of one layout are the same if they are so place by place (`eq_of_places`), so remapping a table to its own
   layout gives it back (`remap_self`).
-/
namespace Payphone.Layout

/-- What the source has for a target field, it has at the same place, and what it does not have stands behind its
entries. Nothing is filled with anything but zeros. -/
structure Aligned (source target : Layout) : Prop where
  covered : ∀ k < target.entryLength, ∃ f ∈ target.fields, f.Covers k
  shared : ∀ f ∈ target.fields,
    source.field? f.name = some f ∨ source.field? f.name = none ∧ source.entryLength ≤ f.offset
  blank : ∀ f ∈ target.fields, f.fill = 0

variable {source target : Layout} {table : Bytes} {j k : Nat}

theorem remappedByte?_of_aligned (aligned : Aligned source target) (hk : k < target.entryLength) :
    remappedByte? table source target j k =
      if j < source.entryCount ∧ (j + 1) * source.entryLength ≤ table.length ∧ k < source.entryLength then
        table[j * source.entryLength + k]?
      else some 0 := by
  obtain ⟨f, hf, hcov, hlast⟩ := exists_lastCovering? (aligned.covered k hk)
  have hreach := hcov.sub_lt
  rw [remappedByte?, hlast]
  unfold origin?
  rcases aligned.shared f hf with hsame | ⟨habsent, hbehind⟩
  · have hinside : k < source.entryLength :=
      Nat.lt_of_lt_of_le hcov.2 (stop_le_entryLength (mem_of_field? hsame))
    have hplace : j * source.entryLength + f.offset + (k - f.offset) = j * source.entryLength + k := by
      rw [Nat.add_assoc, Nat.add_sub_of_le hcov.1]
    simp only [hsame, Option.bind_eq_bind, Option.bind_some, hreach, hinside, and_true, hplace]
    by_cases hentry : j < source.entryCount ∧ (j + 1) * source.entryLength ≤ table.length
    · simp only [if_pos hentry]
    · simp only [if_neg hentry, aligned.blank f hf]
  · have houtside : ¬ k < source.entryLength := Nat.not_lt.2 (Nat.le_trans hbehind hcov.1)
    simp only [habsent, Option.bind_eq_bind, Option.bind_none, houtside, and_false, if_false, aligned.blank f hf]

/-- A byte that has a place in both layouts is copied, any other one is zero. -/
theorem getElem?_remap_of_aligned (aligned : Aligned source target) (h : table.length = source.tableLength)
    (hj : j < target.entryCount) (hk : k < target.entryLength) :
    (remap table source target)[target.entryLength * j + k]? =
      if j < source.entryCount ∧ k < source.entryLength then table[source.entryLength * j + k]? else some 0 := by
  have whole : j < source.entryCount → (j + 1) * source.entryLength ≤ table.length := by
    intro hsource
    rw [h, tableLength, Nat.mul_comm source.entryLength]
    exact Nat.mul_le_mul_right _ hsource
  rw [getElem?_remap table source target hj hk, remappedByte?_of_aligned aligned hk, Nat.mul_comm j]
  by_cases hsource : j < source.entryCount
  · simp only [hsource, whole hsource, true_and]
  · simp only [hsource, false_and]

/-- A table is its bytes by entry and place. -/
theorem eq_of_places {l : Layout} {table' : Bytes} (h : table.length = l.tableLength)
    (h' : table'.length = l.tableLength)
    (same : ∀ j < l.entryCount, ∀ k < l.entryLength, table[l.entryLength * j + k]? = table'[l.entryLength * j + k]?) :
    table = table' := by
  apply List.ext_getElem?
  intro i
  by_cases hi : i < l.tableLength
  · have hpos : 0 < l.entryLength := Nat.pos_of_mul_pos_right (Nat.zero_lt_of_lt hi)
    have hplace := same (i / l.entryLength) (Nat.div_lt_of_lt_mul hi) (i % l.entryLength) (Nat.mod_lt i hpos)
    rwa [Nat.div_add_mod] at hplace
  · rw [List.getElem?_eq_none (by omega), List.getElem?_eq_none (by omega)]

theorem remap_self {l : Layout} (aligned : Aligned l l) (h : table.length = l.tableLength) :
    remap table l l = table := by
  apply eq_of_places (length_remap table l l) h
  intro j hj k hk
  rw [getElem?_remap_of_aligned aligned h hj hk, if_pos ⟨hj, hk⟩]

end Payphone.Layout
