import Payphone.Proofs.Lcd.Slots

/-!
Tables from one packing to another.

A class that is too large for the new packing becomes the largest, so repacking never turns a class into another one
that happens to share its low bits. This file shows that

1. what a packing in between loses is exactly what is larger than it allows and not lost at the end anyway
   (`withPacking_withPacking_eq_iff`), so a table that goes through a packing with room for all its classes comes back
   (`withPacking_self`);
2. a class that fits both packings may be set before or after (`setClass_withPacking`).
-/
namespace Payphone.Lcd.Table

theorem min_min_eq_iff (c a b : UInt8) : min (min c a) b = min c b ↔ b ≤ a ∨ c ≤ a := by
  rw [← UInt8.toNat_inj, UInt8.toNat_min, UInt8.toNat_min, UInt8.toNat_min, UInt8.le_iff_toNat_le,
    UInt8.le_iff_toNat_le]
  omega

theorem min_eq_of_le {c a : UInt8} (h : c ≤ a) : min c a = c := by
  rw [UInt8.min_def, if_pos h]

variable {t u : Table} {a b : Packing} {nxx : Nat} {rate : UInt8}

/-- A packing on the way makes a difference exactly if it cuts off what the last one has room for. -/
theorem withPacking_withPacking_eq_iff :
    (t.withPacking a).withPacking b = t.withPacking b ↔
      b.maxClass ≤ a.maxClass ∨ ∀ c ∈ t.classes.toList, c ≤ a.maxClass := by
  have classwise : (t.withPacking a).withPacking b = t.withPacking b ↔
      ∀ c ∈ t.classes, min (min c a.maxClass) b.maxClass = min c b.maxClass := by
    simp only [withPacking, Vector.map_map, Table.mk.injEq, true_and]
    exact Vector.map_inj_left
  rw [classwise]
  simp only [min_min_eq_iff, Vector.mem_toList_iff]
  constructor
  · intro h
    by_cases wide : b.maxClass ≤ a.maxClass
    · exact .inl wide
    · exact .inr fun c hc => (h c hc).resolve_left wide
  · rintro (wide | fit) c hc
    · exact .inl wide
    · exact .inr (fit c hc)

/-- A table whose classes fit stays as it is in its own packing. -/
theorem withPacking_self (fit : ∀ c ∈ t.classes.toList, c ≤ t.packing.maxClass) : t.withPacking t.packing = t := by
  have same : t.classes.map (fun c => min c t.packing.maxClass) = t.classes.map id := by
    apply Vector.map_congr_left
    intro c hc
    exact min_eq_of_le (fit c (Vector.mem_toList_iff.2 hc))
  rw [withPacking, same, Vector.map_id]

/-- A class that fits both packings is the same before and after. -/
theorem setClass_withPacking (h : t.setClass nxx rate = .ok u) (small : rate ≤ a.maxClass) :
    (t.withPacking a).setClass nxx rate = .ok (u.withPacking a) := by
  obtain ⟨inside, -, rfl⟩ := setClass_eq_ok_iff.1 h
  refine setClass_eq_ok_iff.2 ⟨inside, small, ?_⟩
  simp only [withPacking, Vector.map_setIfInBounds, min_eq_of_le small]

/-- **Repacking clamps.** Identifier and area code stay, and every class becomes the smaller one of itself and the
largest that the packing has room for; the payload is read as that table. Going through another packing first makes no
difference exactly if that packing has room for as much as the last one or for all classes of the table. So repacking
into the own packing, or into one with more room and back, changes nothing. A class that fits both packings may be set
before repacking or after. -/
theorem repacking_clamps (h : Reachable t) (a b : Packing) :
    ((t.withPacking a).tableId = t.tableId ∧ (t.withPacking a).npa = t.npa ∧ (t.withPacking a).packing = a ∧
      ∀ nxx, (t.withPacking a).classOf? nxx = (t.classOf? nxx).map fun c => min c a.maxClass) ∧
    (detect t.tableId (t.withPacking a).encode).result = .ok (t.withPacking a) ∧
    ((t.withPacking a).withPacking b = t.withPacking b ↔
      b.maxClass ≤ a.maxClass ∨ ∀ c ∈ t.classes.toList, c ≤ a.maxClass) ∧
    t.withPacking t.packing = t ∧
    (t.packing.maxClass ≤ a.maxClass → (t.withPacking a).withPacking t.packing = t) ∧
    ∀ nxx rate u, t.setClass nxx rate = .ok u → rate ≤ a.maxClass →
      (t.withPacking a).setClass nxx rate = .ok (u.withPacking a) := by
  have own := withPacking_self h.wellFormed.fit
  refine ⟨⟨rfl, rfl, rfl, classOf?_map rfl⟩, ?_, withPacking_withPacking_eq_iff, own, ?_, ?_⟩
  · exact detect_encode (h.wellFormed.withPacking a)
  · intro wide
    rw [withPacking_withPacking_eq_iff.2 (.inl wide), own]
  · intro nxx rate u set small
    exact setClass_withPacking set small

/-- Class 200 does not come back from the packing with room for 15. On the way to the one with room for 3 that makes no
difference, and class 7 may be set before or after. -/
theorem repacking_clamps_narrow :
    ∃ start t u, Table.new 0x88 408 .uncompressed = .ok start ∧ start.setClass 555 200 = .ok t ∧ Reachable t ∧
      (t.withPacking .compressed).classOf? 555 = some 15 ∧
      (detect t.tableId (t.withPacking .compressed).encode).result = .ok (t.withPacking .compressed) ∧
      (t.withPacking .compressed).withPacking .uncompressed ≠ t.withPacking .uncompressed ∧
      (t.withPacking .compressed).withPacking .doubleCompressed = t.withPacking .doubleCompressed ∧
      t.setClass 556 7 = .ok u ∧ (t.withPacking .compressed).setClass 556 7 = .ok (u.withPacking .compressed) := by
  have made : Table.new 0x88 408 .uncompressed =
      .ok ⟨0x88, 408, .uncompressed, Vector.replicate exchangeCount 0⟩ := rfl
  obtain ⟨t, ht⟩ := (exists_setClass_iff ⟨0x88, 408, .uncompressed, Vector.replicate exchangeCount 0⟩ 555 200).2
    (by decide)
  have reached := (Reachable.new made).setClass ht
  have packing : t.packing = .uncompressed := by
    obtain ⟨-, -, rfl⟩ := setClass_eq_ok_iff.1 ht
    rfl
  obtain ⟨u, hu⟩ := (exists_setClass_iff t 556 7).2 ⟨by decide, by rw [packing]; decide⟩
  have class200 : t.classOf? 555 = some 200 := by rw [classOf?_setClass ht, if_pos rfl]
  obtain ⟨⟨-, -, -, classes⟩, detected, lost, -, -, commutes⟩ := repacking_clamps reached .compressed .uncompressed
  obtain ⟨-, -, kept, -⟩ := repacking_clamps reached .compressed .doubleCompressed
  refine ⟨_, t, u, made, ht, reached, ?_, detected, ?_, kept.2 (.inl (by decide)), hu, commutes 556 7 u hu (by decide)⟩
  · rw [classes, class200]
    rfl
  · intro same
    have fit := (lost.1 same).resolve_left (by decide)
    have held : (200 : UInt8) ∈ t.classes.toList := by
      obtain ⟨-, -, rfl⟩ := setClass_eq_ok_iff.1 ht
      exact Vector.mem_toList_iff.2 (Vector.mem_setIfInBounds (by decide))
    exact absurd (fit 200 held) (by decide)

end Payphone.Lcd.Table
