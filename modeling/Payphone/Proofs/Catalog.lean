import Mathlib.Tactic.ByContra
import Payphone.Catalog

/-!
What the catalog says: which identifiers it lists, and when it accepts the length of a payload.
-/
namespace Payphone.Catalog

/-- Some table of the catalog has the identifier. -/
def Lists (id : UInt8) : Prop := ∃ info ∈ all, info.id = id

instance (id : UInt8) : Decidable (Lists id) := inferInstanceAs (Decidable (∃ info ∈ all, info.id = id))

theorem mem_of_lookup {id : UInt8} {info : TableInfo} (h : lookup id = .ok info) : info ∈ all ∧ info.id = id := by
  unfold lookup at h
  split at h
  · rename_i found hf
    obtain rfl := Except.ok.inj h
    exact ⟨List.mem_of_find?_eq_some hf, by simpa using List.find?_some hf⟩
  · cases h

theorem lookup_of_lists {id : UInt8} (h : Lists id) : ∃ info, lookup id = .ok info := by
  obtain ⟨info, hmem, hid⟩ := h
  have some : (all.find? fun found => found.id == id).isSome := List.find?_isSome.2 ⟨info, hmem, beq_iff_eq.2 hid⟩
  obtain ⟨found, hf⟩ := Option.isSome_iff_exists.1 some
  exact ⟨found, by rw [lookup, hf]⟩

theorem lookup_of_not_lists {id : UInt8} (h : ¬ Lists id) : lookup id = .error (.unknownTable id) := by
  unfold lookup
  split
  · rename_i info hf
    exact absurd ⟨info, List.mem_of_find?_eq_some hf, by simpa using List.find?_some hf⟩ h
  · rfl

theorem expectedSize_eq (id : UInt8) (revision : Revision) :
    expectedSize id revision = (lookup id).bind fun info => info.payloadLength revision := rfl

theorem result_validate (id : UInt8) (revision : Revision) (actual : Nat) :
    (validate id revision actual).result = (expectedSize id revision).bind fun expected =>
      if actual = expected then .ok () else .error (.sizeMismatch id expected actual) := by
  rw [validate, expectedSize_eq, Attempt.result_bind, Attempt.result_lift]
  cases lookup id with
  | error e => rfl
  | ok info =>
    simp only [Except.bind, Attempt.result_bind, Attempt.result_lift]
    cases info.payloadLength revision with
    | error e => rfl
    | ok expected => by_cases h : actual = expected <;> simp [h, Except.bind]

theorem lists_of_expectedSize {id : UInt8} {revision : Revision} {n : Nat}
    (h : expectedSize id revision = .ok n) : Lists id := by
  by_contra hl
  rw [expectedSize_eq, lookup_of_not_lists hl] at h
  cases h

theorem lookup_of_mem {info : TableInfo} (h : info ∈ all) : lookup info.id = .ok info := by
  simp only [all, List.mem_cons, List.not_mem_nil, or_false] at h
  rcases h with rfl | rfl | rfl | rfl | rfl | rfl | rfl <;> rfl

theorem expectedSize_of_not_lists {id : UInt8} (h : ¬ Lists id) (revision : Revision) :
    expectedSize id revision = .error (.unknownTable id) := by
  rw [expectedSize_eq, lookup_of_not_lists h]
  rfl

theorem expectedSize_of_absent {id : UInt8} {revision : Revision} {info : TableInfo} (h : info ∈ all)
    (own : info.id = id) (absent : info.payloadLength? revision = none) :
    expectedSize id revision = .error (.unsupportedRevision id revision) := by
  subst own
  rw [expectedSize_eq, lookup_of_mem h]
  simp [Except.bind, TableInfo.payloadLength, absent]

/-- The catalog does not have the identifier, or not in the revision, or it gives a length. -/
theorem expectedSize_cases (id : UInt8) (revision : Revision) :
    (¬ Lists id ∧ expectedSize id revision = .error (.unknownTable id)) ∨
    (∃ info ∈ all, info.id = id ∧ info.payloadLength? revision = none ∧
      expectedSize id revision = .error (.unsupportedRevision id revision)) ∨
    ∃ size, expectedSize id revision = .ok size := by
  by_cases listed : Lists id
  · obtain ⟨info, hmem, own⟩ := listed
    refine .inr ?_
    cases hp : info.payloadLength? revision with
    | none => exact .inl ⟨info, hmem, own, hp, expectedSize_of_absent hmem own hp⟩
    | some size =>
      refine .inr ⟨size, ?_⟩
      rw [expectedSize_eq, ← own, lookup_of_mem hmem]
      simp [Except.bind, TableInfo.payloadLength, hp]
  · exact .inl ⟨listed, expectedSize_of_not_lists listed revision⟩

/-- What follows a check of the length is reached exactly if the length is right. -/
theorem result_validate_bind {α : Type} {id : UInt8} {revision : Revision} {size actual : Nat}
    (h : expectedSize id revision = .ok size) (next : Unit → Attempt α) :
    (validate id revision actual >>= next).result =
      if actual = size then (next ()).result else .error (.sizeMismatch id size actual) := by
  rw [Attempt.result_bind, result_validate, h]
  by_cases hlen : actual = size <;> simp [hlen, Except.bind]

theorem eq_of_validate {id : UInt8} {revision : Revision} {size actual : Nat}
    (h : expectedSize id revision = .ok size) (ok : (validate id revision actual).result = .ok ()) :
    actual = size := by
  rw [result_validate, h] at ok
  by_contra hne
  simp [Except.bind, hne] at ok

/-- No payload of the catalog is longer than the card table of MTR 2.x. -/
theorem expectedSize_le {id : UInt8} {revision : Revision} {n : Nat} (h : expectedSize id revision = .ok n) :
    n ≤ 1152 := by
  have bound : ∀ info ∈ all, ∀ r ∈ [Revision.mtr1, .mtr2], ∀ n ∈ info.payloadLength? r, n ≤ 1152 := by decide
  rw [expectedSize_eq] at h
  cases hl : lookup id with
  | error e =>
    rw [hl] at h
    cases h
  | ok info =>
    rw [hl] at h
    cases hp : info.payloadLength? revision with
    | none => simp [Except.bind, TableInfo.payloadLength, hp] at h
    | some m =>
      obtain rfl : m = n := by simpa [Except.bind, TableInfo.payloadLength, hp] using h
      exact bound info (mem_of_lookup hl).1 revision (by cases revision <;> simp) m hp

end Payphone.Catalog
