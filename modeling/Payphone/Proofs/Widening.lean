import Mathlib.Data.List.Nodup
import Mathlib.Data.List.Pairwise
import Payphone.Proofs.Alignment

/-!
Layouts that have room for one another.

A narrow layout fits in a wide one if every field of the narrow one has a field of its name in the wide one that is at
least as long, wherever that stands, and the wide one has at least as many entries (`FitsIn`). In a layout without two
fields of one name or two fields that share a position (`Separate`), a field is found by its name and by each of its
positions. This file shows that

1. a byte that the source has for a field of the target is copied, from its place there to its place in the target
   (`getElem?_remap_of_field`);
2. remapping to a wide layout and back copies a byte there and back again, so a table whose layout leaves no gap comes
   back as it was (`remap_remap`), as it does if it is remapped to its own layout (`remap_own`).
-/
namespace Payphone

namespace Field

/-- No position belongs to both. -/
def Disjoint (f g : Field) : Prop := ∀ k, f.Covers k → ¬ g.Covers k

instance : Std.Symm Disjoint where
  symm _ _ h k hg hf := h k hf hg

/-- Fields are disjoint if one has no positions, or if one ends before the other begins. -/
theorem disjoint_iff (f g : Field) :
    f.Disjoint g ↔ f.length = 0 ∨ g.length = 0 ∨ f.stop ≤ g.offset ∨ g.stop ≤ f.offset := by
  constructor
  · intro h
    -- the later of the two beginnings would belong to both
    have apart := h (max f.offset g.offset)
    simp only [Covers, stop] at apart ⊢
    omega
  · intro h k hf hg
    simp only [Covers, stop] at h hf hg
    omega

instance (f g : Field) : Decidable (f.Disjoint g) := decidable_of_iff _ (disjoint_iff f g).symm

end Field

namespace Layout

/-- Every field has a name and positions of its own. -/
structure Separate (l : Layout) : Prop where
  names : (l.fields.map Field.name).Nodup
  ranges : l.fields.Pairwise Field.Disjoint

/-- Every position of an entry belongs to a field. -/
def Gapless (l : Layout) : Prop := ∀ k < l.entryLength, ∃ f ∈ l.fields, f.Covers k

instance (l : Layout) : Decidable l.Gapless :=
  inferInstanceAs (Decidable (∀ k < l.entryLength, ∃ f ∈ l.fields, f.Covers k))

/-- The wide layout has room for all that tables of the narrow one hold. -/
structure FitsIn (narrow wide : Layout) : Prop where
  fields : ∀ f ∈ narrow.fields, ∃ g ∈ wide.fields, g.name = f.name ∧ f.length ≤ g.length
  entries : narrow.entryCount ≤ wide.entryCount

/-! The place of a field. -/

section

variable {l : Layout} (separate : l.Separate) {f : Field} (hf : f ∈ l.fields)
include separate hf

theorem field?_of_mem : l.field? f.name = some f := by
  have found : (l.field? f.name).isSome := List.find?_isSome.2 ⟨f, hf, beq_self_eq_true f.name⟩
  obtain ⟨g, hg⟩ := Option.isSome_iff_exists.1 found
  have hname : g.name = f.name := by simpa using List.find?_some hg
  rw [hg, List.inj_on_of_nodup_map separate.names (mem_of_field? hg) hf hname]

theorem lastCovering?_of_mem {k : Nat} (hk : f.Covers k) : l.lastCovering? k = some f := by
  obtain ⟨g, hmem, hcov, hlast⟩ := exists_lastCovering? ⟨f, hf, hk⟩
  by_cases same : g = f
  · rw [hlast, same]
  · exact absurd hk (separate.ranges.forall hmem hf same k hcov)

end

/-! Bytes that are copied. -/

section

variable {source target : Layout} {table : Bytes} {f g : Field} {i j : Nat}

/-- Byte `i` of a field is taken from byte `i` of the field that the source has under its name. -/
theorem getElem?_remap_of_field (separate : target.Separate) (h : table.length = source.tableLength)
    (hf : f ∈ target.fields) (hg : source.field? f.name = some g) (hi : i < f.length) (reach : i < g.length)
    (hj : j < target.entryCount) (hsource : j < source.entryCount) :
    (remap table source target)[target.entryLength * j + (f.offset + i)]? =
      table[source.entryLength * j + (g.offset + i)]? := by
  have hcov : f.Covers (f.offset + i) := ⟨Nat.le_add_right _ _, Nat.add_lt_add_left hi _⟩
  have hk : f.offset + i < target.entryLength := Nat.lt_of_lt_of_le hcov.2 (stop_le_entryLength hf)
  have whole : (j + 1) * source.entryLength ≤ table.length := by
    rw [h, tableLength, Nat.mul_comm source.entryLength]
    exact Nat.mul_le_mul_right _ hsource
  have origin : source.origin? table j f (f.offset + i) = some (source.entryLength * j + (g.offset + i)) := by
    unfold origin?
    simp only [hg, Option.bind_eq_bind, Option.bind_some, Nat.add_sub_cancel_left, hsource, whole, reach, and_self,
      if_true]
    rw [Nat.mul_comm, Nat.add_assoc]
  rw [getElem?_remap table source target hj hk, remappedByte?, lastCovering?_of_mem separate hf hcov]
  simp only [origin]

end

/-! There and back. -/

section

variable {narrow : Layout} (separate : narrow.Separate) (gapless : narrow.Gapless) {table : Bytes}
  (h : table.length = narrow.tableLength)
include separate gapless h

/-- A table is remapped to its own layout without change. -/
theorem remap_own : remap table narrow narrow = table := by
  apply eq_of_places (length_remap table narrow narrow) h
  intro j hj k hk
  obtain ⟨f, hf, hcov⟩ := gapless k hk
  obtain ⟨i, rfl⟩ := Nat.exists_eq_add_of_le hcov.1
  have hi : i < f.length := Nat.lt_of_add_lt_add_left hcov.2
  exact getElem?_remap_of_field separate h hf (field?_of_mem separate hf) hi hi hj hj

theorem remap_remap {wide : Layout} (apart : wide.Separate) (fits : narrow.FitsIn wide) :
    remap (remap table narrow wide) wide narrow = table := by
  apply eq_of_places (length_remap _ wide narrow) h
  intro j hj k hk
  obtain ⟨f, hf, hcov⟩ := gapless k hk
  obtain ⟨i, rfl⟩ := Nat.exists_eq_add_of_le hcov.1
  obtain ⟨g, hg, hname, long⟩ := fits.fields f hf
  have hi : i < f.length := Nat.lt_of_add_lt_add_left hcov.2
  have hi' : i < g.length := Nat.lt_of_lt_of_le hi long
  have hj' : j < wide.entryCount := Nat.lt_of_lt_of_le hj fits.entries
  have there : narrow.field? g.name = some f := by rw [hname, field?_of_mem separate hf]
  have back : wide.field? f.name = some g := by rw [← hname, field?_of_mem apart hg]
  calc (remap (remap table narrow wide) wide narrow)[narrow.entryLength * j + (f.offset + i)]?
      = (remap table narrow wide)[wide.entryLength * j + (g.offset + i)]? :=
        getElem?_remap_of_field separate (length_remap table narrow wide) hf back hi hi' hj hj'
    _ = table[narrow.entryLength * j + (f.offset + i)]? :=
        getElem?_remap_of_field apart h hg there hi' hi hj' hj

end

/-- A layout that has room for entries with bytes has such entries itself. -/
theorem FitsIn.entryLength_pos {narrow wide : Layout} (fits : narrow.FitsIn wide) (gapless : narrow.Gapless)
    (hpos : 0 < narrow.entryLength) : 0 < wide.entryLength := by
  obtain ⟨f, hf, hcov⟩ := gapless 0 hpos
  obtain ⟨g, hg, -, long⟩ := fits.fields f hf
  have hstop := stop_le_entryLength hg
  have hlen := hcov.sub_lt
  rw [Field.stop] at hstop
  omega

theorem convert?_of_pos {target : Layout} (hpos : 0 < target.entryLength) (table : Bytes) (source : Layout) :
    (convert? table source target).map (·.result) = some (.ok (remap table source target)) := by
  rw [convert?, remap?_eq, if_neg (Nat.pos_iff_ne_zero.1 hpos)]
  rfl

/-- **What a wide layout has room for comes back.** Let no two fields of a layout have one name or share a position,
and let every position belong to one. Then a table under it that is remapped to a layout with longer fields, wherever
these stand, and with other fields, gaps and more entries, is given back when it is remapped again. Remapped to its own
layout it stays as it is. -/
theorem widening_is_undone {narrow : Layout} (separate : narrow.Separate) (gapless : narrow.Gapless)
    (hpos : 0 < narrow.entryLength) {table : Bytes} (h : table.length = narrow.tableLength) :
    (∀ wide : Layout, wide.Separate → narrow.FitsIn wide →
      ∃ out, (convert? table narrow wide).map (·.result) = some (.ok out) ∧ out.length = wide.tableLength ∧
        (convert? out wide narrow).map (·.result) = some (.ok table)) ∧
    (convert? table narrow narrow).map (·.result) = some (.ok table) := by
  constructor
  · intro wide apart fits
    refine ⟨remap table narrow wide, convert?_of_pos (fits.entryLength_pos gapless hpos) table narrow,
      length_remap table narrow wide, ?_⟩
    rw [convert?_of_pos hpos, remap_remap separate gapless h apart fits]
  · rw [convert?_of_pos hpos, remap_own separate gapless h]

/-- Fields in another order behind a gap, one of them longer and one more between them, and an entry more. -/
theorem widening_is_undone_reordered :
    let narrow : Layout := ⟨0x10, .mtr1, 2, [⟨"a", 0, 2, 1⟩, ⟨"b", 2, 1, 2⟩]⟩
    let wide : Layout := ⟨0x11, .mtr2, 3, [⟨"b", 5, 2, 9⟩, ⟨"new", 3, 2, 7⟩, ⟨"a", 1, 2, 5⟩]⟩
    let table : Bytes := [10, 11, 12, 20, 21, 22]
    narrow.Separate ∧ narrow.Gapless ∧ 0 < narrow.entryLength ∧ table.length = narrow.tableLength ∧ wide.Separate ∧
    narrow.FitsIn wide ∧
    ∃ out, (convert? table narrow wide).map (·.result) = some (.ok out) ∧ out.length = 21 ∧
      (convert? out wide narrow).map (·.result) = some (.ok table) := by
  intro narrow wide table
  have separate : narrow.Separate := ⟨by decide, by decide⟩
  have gapless : narrow.Gapless := by decide
  have hpos : 0 < narrow.entryLength := by decide
  have size : table.length = narrow.tableLength := by decide
  have apart : wide.Separate := ⟨by decide, by decide⟩
  have fits : narrow.FitsIn wide := ⟨by decide, by decide⟩
  exact ⟨separate, gapless, hpos, size, apart, fits, (widening_is_undone separate gapless hpos size).1 wide apart fits⟩

end Layout

end Payphone
