import Mathlib.Data.List.Induction
import Payphone.Layout
import Payphone.Proofs.Patches

/-!
Entries taken apart and put together field by field.

Fields of a layout may overlap, leave gaps, repeat names and stand in any order. This file shows that

1. no field ends behind its entry (`stop_le_entryLength`), so every field can be read (`part?_of_field?`) and
   written;
2. an entry has the length of its layout, whatever is given for the fields (`length_assemble`);
3. where fields are written one over the other, the last one that covers a position decides its byte
   (`getElem?_assemble`).
-/
namespace Payphone

/-! Parts. -/

theorem Bytes.slice?_eq {b : Bytes} {start length : Nat} (h : start + length ≤ b.length) :
    b.slice? start length = some ((b.drop start).take length) := if_pos h

/-- The parts of `n` bytes up to some part, one behind the other. -/
theorem Bytes.flatMap_chunks (b : Bytes) (n count : Nat) :
    ((List.range count).flatMap fun i => (b.drop (i * n)).take n) = b.take (count * n) := by
  induction count with
  | zero => simp
  | succ count ih =>
    rw [List.range_succ, List.flatMap_append, ih, List.flatMap_singleton, Nat.succ_mul, List.take_add]

namespace Field

/-- The position is one of the field's. -/
def Covers (f : Field) (k : Nat) : Prop := f.offset ≤ k ∧ k < f.stop

instance (f : Field) (k : Nat) : Decidable (f.Covers k) := inferInstanceAs (Decidable (_ ∧ _))

theorem Covers.sub_lt {f : Field} {k : Nat} (hk : f.Covers k) : k - f.offset < f.length := by
  obtain ⟨hlo, hhi⟩ := hk
  rw [stop] at hhi
  omega

theorem getElem?_slice {f : Field} {k : Nat} (hk : f.Covers k) (entry : Bytes) :
    (f.slice entry)[k - f.offset]? = entry[k]? := by
  rw [slice, List.getElem?_take_of_lt hk.sub_lt, List.getElem?_drop, Nat.add_sub_of_le hk.1]

theorem length_pad {f : Field} {bytes : Bytes} (h : bytes.length ≤ f.length) :
    (f.pad bytes).length = f.length := by
  simp [pad]
  omega

theorem getElem?_pad {f : Field} {bytes : Bytes} {i : Nat} (hi : i < f.length) :
    (f.pad bytes)[i]? = if i < bytes.length then bytes[i]? else some f.fill := by
  rw [pad]
  by_cases h : i < bytes.length
  · rw [List.getElem?_append_left h, if_pos h]
  · rw [List.getElem?_append_right (by omega), if_neg h, List.getElem?_replicate, if_pos (by omega)]

end Field

namespace Layout

/-! Everything is within bounds. -/

theorem le_foldl_max (ns : List Nat) (m : Nat) : m ≤ ns.foldl max m ∧ ∀ n ∈ ns, n ≤ ns.foldl max m := by
  induction ns generalizing m with
  | nil => simp
  | cons x ns ih =>
    obtain ⟨hm, hall⟩ := ih (max m x)
    refine ⟨by rw [List.foldl_cons]; omega, ?_⟩
    intro n hn
    rw [List.foldl_cons]
    rcases List.mem_cons.1 hn with rfl | hn
    · omega
    · exact hall n hn

theorem stop_le_entryLength {l : Layout} {f : Field} (h : f ∈ l.fields) : f.stop ≤ l.entryLength :=
  (le_foldl_max (l.fields.map Field.stop) 0).2 _ (List.mem_map_of_mem h)

theorem mem_of_field? {l : Layout} {name : String} {f : Field} (h : l.field? name = some f) : f ∈ l.fields :=
  List.mem_of_find?_eq_some h

theorem stop_le_blank {l : Layout} :
    ∀ f ∈ l.fields, f.stop ≤ (List.replicate l.entryLength (0 : UInt8)).length := by
  intro f hf
  rw [List.length_replicate]
  exact stop_le_entryLength hf

/-- The last field in the list that covers position `k` of an entry. -/
def lastCovering? (l : Layout) (k : Nat) : Option Field := l.fields.reverse.find? fun f => f.Covers k

theorem exists_lastCovering? {l : Layout} {k : Nat} (h : ∃ f ∈ l.fields, f.Covers k) :
    ∃ f ∈ l.fields, f.Covers k ∧ l.lastCovering? k = some f := by
  obtain ⟨g, hmem, hcov⟩ := h
  have found : (l.lastCovering? k).isSome :=
    List.find?_isSome.2 ⟨g, List.mem_reverse.2 hmem, decide_eq_true hcov⟩
  obtain ⟨f, hf⟩ := Option.isSome_iff_exists.1 found
  exact ⟨f, List.mem_reverse.1 (List.mem_of_find?_eq_some hf), by simpa using List.find?_some hf, hf⟩

/-- No position belongs to two fields. -/
def Apart (l : Layout) : Prop := ∀ f ∈ l.fields, ∀ k < l.entryLength, f.Covers k → l.lastCovering? k = some f

instance (l : Layout) : Decidable l.Apart :=
  inferInstanceAs (Decidable (∀ f ∈ l.fields, ∀ k < l.entryLength, f.Covers k → l.lastCovering? k = some f))

/-! Fields by name. -/

section

variable {l : Layout} {name : String} {f : Field} {entry : Bytes}

theorem part?_of_field? (hf : l.field? name = some f) (h : entry.length = l.entryLength) :
    l.part? name entry = some (f.slice entry) := by
  have hstop := stop_le_entryLength (mem_of_field? hf)
  rw [part?, hf]
  exact Bytes.slice?_eq (by rw [h]; exact hstop)

theorem length_slice_of_field? (hf : l.field? name = some f) (h : entry.length = l.entryLength) :
    (f.slice entry).length = f.length := by
  have hstop := stop_le_entryLength (mem_of_field? hf)
  rw [Field.stop] at hstop
  simp [Field.slice]
  omega

theorem exists_byte? (name : String) (h : entry.length = l.entryLength) : ∃ x, l.byte? name entry = some x := by
  cases hf : l.field? name with
  | none => exact ⟨0, by simp [byte?, part?, hf]⟩
  | some f => exact ⟨(f.slice entry).headD 0, by simp [byte?, part?_of_field? hf h]⟩

theorem exists_array? {n : Nat} (hf : l.field? name = some f) (hn : f.length = n)
    (h : entry.length = l.entryLength) : ∃ v, l.array? n name entry = some v := by
  have hlen : (f.slice entry).length = n := (length_slice_of_field? hf h).trans hn
  exact ⟨⟨(f.slice entry).toArray, hlen⟩, by simp [array?, part?_of_field? hf h, hlen]⟩

/-- What is read as a byte is all that a field of one byte holds. -/
theorem singleton_of_byte? {x : UInt8} (hx : l.byte? name entry = some x) (hf : l.field? name = some f)
    (h : entry.length = l.entryLength) (hlen : f.length = 1) : [x] = f.slice entry := by
  obtain ⟨y, hy⟩ := List.length_eq_one_iff.1 ((length_slice_of_field? hf h).trans hlen)
  rw [byte?, part?_of_field? hf h, hy] at hx
  rw [hy, ← Option.some.inj hx]
  rfl

/-- A field of one byte is read as that byte. -/
theorem byte?_of_part? {x : UInt8} (h : l.part? name entry = some [x]) : l.byte? name entry = some x := by
  rw [byte?, h]
  rfl

theorem array?_of_part? {n : Nat} {v : Vector UInt8 n} (h : l.part? name entry = some v.toList) :
    l.array? n name entry = some v := by
  rw [array?, h, Option.bind_eq_bind, Option.bind_some, dif_pos Vector.length_toList]
  rfl

theorem toList_of_array? {n : Nat} {v : Vector UInt8 n} (hv : l.array? n name entry = some v)
    (hf : l.field? name = some f) (h : entry.length = l.entryLength) : v.toList = f.slice entry := by
  rw [array?, part?_of_field? hf h, Option.bind_eq_bind, Option.bind_some] at hv
  split at hv
  · obtain rfl := Option.some.inj hv
    rfl
  · cases hv

end

/-- A payload of the right length falls into its entries. -/
theorem chunks?_of_length {l : Layout} {payload : Bytes} (hpos : 0 < l.entryLength)
    (h : payload.length = l.tableLength) :
    ∃ parts, payload.chunks? l.entryLength = some parts ∧ parts.length = l.entryCount ∧
      (∀ part ∈ parts, part.length = l.entryLength) ∧ parts.flatten = payload := by
  have count : payload.length / l.entryLength = l.entryCount := by
    rw [h, Layout.tableLength, Nat.mul_div_cancel_left _ hpos]
  refine ⟨_, if_neg (by omega), by simp [count], ?_, ?_⟩
  · intro part hpart
    obtain ⟨i, hi, rfl⟩ := List.mem_map.1 hpart
    rw [List.mem_range, count] at hi
    have hend : (i + 1) * l.entryLength ≤ l.entryCount * l.entryLength := Nat.mul_le_mul_right _ hi
    rw [Layout.tableLength, Nat.mul_comm] at h
    rw [Nat.succ_mul] at hend
    rw [List.length_take, List.length_drop]
    omega
  · have whole : payload.length ≤ l.entryCount * l.entryLength := Nat.le_of_eq (h.trans (Nat.mul_comm _ _))
    rw [← List.flatMap_def, Bytes.flatMap_chunks, count, List.take_of_length_le whole]

/-! Tables written entry by entry. -/

section

variable {α : Type} {l : Layout} {write : α → Bytes} (h : ∀ a, (write a).length = l.entryLength)
include h

theorem chunks?_flatMap (hpos : 0 < l.entryLength) (xs : List α) :
    Bytes.chunks? (xs.flatMap write) l.entryLength = some (xs.map write) := by
  have count : (xs.flatMap write).length / l.entryLength = xs.length := by
    rw [length_flatMap_rows h, Nat.mul_div_cancel_left _ hpos]
  rw [Bytes.chunks?, if_neg (by omega), count]
  congr 1
  apply List.ext_getElem (by simp)
  intro i hi hi'
  rw [List.length_map] at hi'
  rw [List.getElem_map, List.getElem_range, take_drop_flatMap_rows h, List.getElem?_eq_getElem hi', List.getElem_map]
  rfl

theorem entry?_flatMap {xs : List α} (count : xs.length = l.entryCount) (i : Nat) :
    l.entry? (xs.flatMap write) i = xs[i]?.map write := by
  unfold entry?
  rw [length_flatMap_rows h, count, take_drop_flatMap_rows h]
  by_cases hi : i < l.entryCount
  · have hend : (i + 1) * l.entryLength ≤ l.entryLength * l.entryCount := by
      rw [Nat.mul_comm l.entryLength]
      exact Nat.mul_le_mul_right _ hi
    rw [if_pos ⟨hi, hend⟩, List.getElem?_eq_getElem (count ▸ hi)]
    rfl
  · rw [if_neg fun inside => hi inside.1, List.getElem?_eq_none (by omega)]
    rfl

end

/-! One field after the other. -/

variable {given : Field → Bytes} (hg : ∀ f, (given f).length ≤ f.length)
include hg

/-- One write: the field stands where it covers, the rest is as before. -/
theorem overwrite_given {f : Field} {out : Bytes} (h : f.stop ≤ out.length) :
    (out.overwrite f.offset (f.pad (given f))).length = out.length ∧
    ∀ k, (out.overwrite f.offset (f.pad (given f)))[k]? =
      if f.Covers k then (f.pad (given f))[k - f.offset]? else out[k]? := by
  have hpad := Field.length_pad (hg f)
  have hlen : f.offset + (f.pad (given f)).length ≤ out.length := by
    rw [hpad]
    exact h
  refine ⟨Bytes.length_overwrite hlen, fun k => ?_⟩
  rw [Bytes.getElem?_overwrite hlen, hpad]
  rfl

theorem length_foldl_overwrite (fields : List Field) {out : Bytes} (hf : ∀ f ∈ fields, f.stop ≤ out.length) :
    (fields.foldl (fun out f => out.overwrite f.offset (f.pad (given f))) out).length = out.length := by
  induction fields generalizing out with
  | nil => rfl
  | cons f fields ih =>
    have hkeep := (overwrite_given hg (hf f List.mem_cons_self)).1
    rw [List.foldl_cons, ih, hkeep]
    intro g hmem
    rw [hkeep]
    exact hf g (List.mem_cons_of_mem f hmem)

theorem getElem?_foldl_overwrite (fields : List Field) {out : Bytes} (hf : ∀ f ∈ fields, f.stop ≤ out.length)
    (k : Nat) :
    (fields.foldl (fun out f => out.overwrite f.offset (f.pad (given f))) out)[k]? =
      match fields.reverse.find? fun f => f.Covers k with
      | some f => (f.pad (given f))[k - f.offset]?
      | none => out[k]? := by
  -- on the fields from the last one on, so that the field written last is met first
  induction fields using List.reverseRecOn with
  | nil => rfl
  | append_singleton fields f ih =>
    have hfields : ∀ g ∈ fields, g.stop ≤ out.length := fun g hmem => hf g (List.mem_append_left _ hmem)
    have hstop : f.stop ≤
        (fields.foldl (fun out f => out.overwrite f.offset (f.pad (given f))) out).length := by
      rw [length_foldl_overwrite hg fields hfields]
      exact hf f (by simp)
    rw [List.foldl_append, List.foldl_cons, List.foldl_nil, (overwrite_given hg hstop).2 k, List.reverse_append,
      List.reverse_singleton, List.singleton_append, List.find?_cons]
    by_cases hk : f.Covers k
    · rw [if_pos hk, decide_eq_true hk]
    · rw [if_neg hk, decide_eq_false hk]
      exact ih hfields

/-- With every access checked, writing the fields gives the same. -/
theorem foldlM_overwrite? (fields : List Field) {out : Bytes} (hf : ∀ f ∈ fields, f.stop ≤ out.length) :
    fields.foldlM (fun out f => out.overwrite? f.offset (f.pad (given f))) out =
      some (fields.foldl (fun out f => out.overwrite f.offset (f.pad (given f))) out) := by
  induction fields generalizing out with
  | nil => rfl
  | cons f fields ih =>
    have hlen : f.offset + (f.pad (given f)).length ≤ out.length := by
      rw [Field.length_pad (hg f)]
      exact hf f List.mem_cons_self
    rw [List.foldlM_cons, List.foldl_cons, Bytes.overwrite?_eq hlen, Option.bind_eq_bind, Option.bind_some]
    apply ih
    intro g hmem
    rw [Bytes.length_overwrite hlen]
    exact hf g (List.mem_cons_of_mem f hmem)

/-! Entries. -/

theorem length_assemble (l : Layout) : (l.assemble given).length = l.entryLength := by
  rw [assemble, length_foldl_overwrite hg l.fields stop_le_blank, List.length_replicate]

/-- The last field that covers a position decides its byte. -/
theorem getElem?_assemble (l : Layout) {k : Nat} (hk : k < l.entryLength) :
    (l.assemble given)[k]? =
      match l.lastCovering? k with
      | some f => (f.pad (given f))[k - f.offset]?
      | none => some 0 := by
  rw [assemble, getElem?_foldl_overwrite hg l.fields stop_le_blank, List.getElem?_replicate, if_pos hk]
  rfl

/-- A field that no other one touches holds what was given for it. -/
theorem slice_assemble {l : Layout} (apart : l.Apart) {f : Field} (hf : f ∈ l.fields) :
    f.slice (l.assemble given) = f.pad (given f) := by
  have hstop := stop_le_entryLength hf
  have hpad := Field.length_pad (hg f)
  rw [Field.stop] at hstop
  apply List.ext_getElem?
  intro i
  by_cases hi : i < f.length
  · have hcov : f.Covers (f.offset + i) := ⟨Nat.le_add_right _ _, Nat.add_lt_add_left hi _⟩
    have hread := Field.getElem?_slice hcov (l.assemble given)
    have hk : f.offset + i < l.entryLength := by omega
    rw [getElem?_assemble hg l hk, apart f hf _ hk hcov] at hread
    simpa only [Nat.add_sub_cancel_left] using hread
  · rw [List.getElem?_eq_none (by simp [Field.slice]; omega), List.getElem?_eq_none (by omega)]

end Layout

end Payphone
