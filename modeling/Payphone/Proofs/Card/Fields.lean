import Payphone.Proofs.Card.Payload

/-!
Entries written field by field and read back.

No two fields of a card layout overlap (`apart_layout`). So the bytes of a field are what the entry has for it
(`slice_write`), reading by name finds them (`part?_write`), and an entry that is written and read again is what the
revision keeps of it (`read?_write`): everything under MTR 2.x, all but the extension under MTR 1.x.
-/
namespace Payphone.Card

theorem apart_layout (revision : Revision) : (layout revision).Apart := by
  cases revision <;> decide

namespace Entry

/-- What an entry keeps under a revision: MTR 1.x has no place for the extension. -/
def under (revision : Revision) (e : Entry) : Entry :=
  match revision with
  | .mtr1 => { e with toExtension := {} }
  | .mtr2 => e

variable {revision : Revision}

theorem under_blank (revision : Revision) : ({} : Entry).under revision = {} := by
  cases revision <;> rfl

/-- Under every revision an entry keeps what there are fields for. -/
theorem value_under {f : Field} (hf : f ∈ (layout revision).fields) (e : Entry) :
    (e.under revision).value f.name = e.value f.name := by
  cases revision with
  | mtr1 =>
    simp only [layout, basicFields, contiguous, List.mem_cons, List.not_mem_nil, or_false] at hf
    rcases hf with rfl | rfl | rfl | rfl | rfl | rfl | rfl | rfl | rfl | rfl <;> rfl
  | mtr2 => rfl

/-- All that a card layout can lack is the extension, under MTR 1.x. -/
theorem extension_of_absent (revision other : Revision) :
    ∀ f ∈ (layout other).fields, (layout revision).field? f.name = none →
      revision = .mtr1 ∧ (f.name = "control_info" ∨ f.name = "bank_info" ∨ f.name = "lang_code") := by
  cases revision <;> cases other <;> decide

/-- What there is no field for is as in an entry of zeros. -/
theorem value_under_of_absent {other : Revision} {f : Field} (hf : f ∈ (layout other).fields)
    (absent : (layout revision).field? f.name = none) (e : Entry) :
    (e.under revision).value f.name = ({} : Entry).value f.name := by
  obtain ⟨rfl, hname | hname | hname⟩ := extension_of_absent revision other f hf absent
  · rw [hname]
    rfl
  · rw [hname]
    rfl
  · rw [hname]
    rfl

theorem slice_write {f : Field} (hf : f ∈ (layout revision).fields) (e : Entry) :
    f.slice (e.write (layout revision)) = e.value f.name := by
  have hlen := (fits_layout revision).sized f hf e
  rw [write, Layout.slice_assemble (length_given e) (apart_layout revision) hf, List.take_of_length_le (by omega),
    Field.pad, hlen, Nat.sub_self, List.replicate_zero, List.append_nil]

theorem part?_write {name : String} (h : ((layout revision).field? name).isSome) (e : Entry) :
    (layout revision).part? name (e.write (layout revision)) = some (e.value name) := by
  obtain ⟨f, hf⟩ := Option.isSome_iff_exists.1 h
  have hname : f.name = name := by simpa using List.find?_some hf
  rw [Layout.part?_of_field? hf (length_write _ e), slice_write (Layout.mem_of_field? hf), hname]

/-- An entry that is written is read as what the revision keeps of it. -/
theorem read?_write (revision : Revision) (e : Entry) :
    read? (layout revision) (e.write (layout revision)) = some (e.under revision) := by
  have bytes {n : Nat} (name : String) {v : Vector UInt8 n} (h : ((layout revision).field? name).isSome)
      (hv : e.value name = v.toList) : (layout revision).array? n name (e.write (layout revision)) = some v :=
    Layout.array?_of_part? (hv ▸ part?_write h e)
  have byte (name : String) {x : UInt8} (h : ((layout revision).field? name).isSome) (hx : e.value name = [x]) :
      (layout revision).byte? name (e.write (layout revision)) = some x :=
    Layout.byte?_of_part? (hx ▸ part?_write h e)
  have panStart := bytes "pan_start" (by cases revision <;> rfl) rfl
  have panEnd := bytes "pan_end" (by cases revision <;> rfl) rfl
  have standardCode := byte "standard_cd" (by cases revision <;> rfl) rfl
  have verify := byte "vfy_flags" (by cases revision <;> rfl) rfl
  have expiryDate := byte "p_exp_date" (by cases revision <;> rfl) rfl
  have initialDate := byte "p_init_date" (by cases revision <;> rfl) rfl
  have discretionary := byte "p_disc_data" (by cases revision <;> rfl) rfl
  have service := bytes "svc_code" (by cases revision <;> rfl) rfl
  have refNum := byte "ref_num" (by cases revision <;> rfl) rfl
  have carrierRef := byte "carrier_ref" (by cases revision <;> rfl) rfl
  simp only [read?, panStart, panEnd, standardCode, verify, expiryDate, initialDate, discretionary, service, refNum,
    carrierRef, Option.bind_eq_bind, Option.bind_some]
  cases revision with
  | mtr1 => rfl
  | mtr2 =>
    have controlInfo := byte "control_info" rfl rfl
    have bankInfo := byte "bank_info" rfl rfl
    have langCode := byte "lang_code" rfl rfl
    simp only [controlInfo, bankInfo, langCode, Option.bind_some]
    rfl

end Entry

end Payphone.Card
