import Payphone.Bytes
import Payphone.Proofs.Rows

/-!
Patches written over part of a byte string.

A patch that does not stick out decides the bytes it covers and leaves the others (`getElem?_overwrite`). A patch
within one of several strings that stand one behind the other is a patch of the whole, further back by what stands in
front (`overwrite_append_left`, `overwrite_append_right`), and so is one within a row of a table of rows
(`flatMap_set_rows`). Several patches leave what none of them covers (`getElem?_foldl_overwrite_of_uncovered`).
-/
namespace Payphone.Bytes

theorem overwrite?_eq {b patch : Bytes} {offset : Nat} (h : offset + patch.length ≤ b.length) :
    b.overwrite? offset patch = some (b.overwrite offset patch) := if_pos h

theorem getElem?_overwrite {b patch : Bytes} {offset : Nat} (h : offset + patch.length ≤ b.length)
    (k : Nat) :
    (b.overwrite offset patch)[k]? =
      if offset ≤ k ∧ k < offset + patch.length then patch[k - offset]? else b[k]? := by
  have front : (b.take offset).length = offset := by simp; omega
  rw [overwrite, List.append_assoc]
  by_cases hlo : k < offset
  · rw [List.getElem?_append_left (by omega), List.getElem?_take_of_lt hlo, if_neg (by omega)]
  · rw [List.getElem?_append_right (by omega), front]
    by_cases hhi : k < offset + patch.length
    · rw [List.getElem?_append_left (by omega), if_pos ⟨by omega, hhi⟩]
    · rw [List.getElem?_append_right (by omega), List.getElem?_drop, if_neg (by omega)]
      congr 1
      omega

/-! Where the patched part stands. -/

section

variable {a b patch : Bytes} {offset : Nat}

theorem overwrite_append_left (h : offset + patch.length ≤ a.length) :
    overwrite (a ++ b) offset patch = a.overwrite offset patch ++ b := by
  rw [overwrite, overwrite, List.take_append_of_le_length (by omega), List.drop_append_of_le_length h,
    List.append_assoc, List.append_assoc, List.append_assoc]

theorem overwrite_append_right : overwrite (a ++ b) (a.length + offset) patch = a ++ b.overwrite offset patch := by
  rw [overwrite, overwrite, List.take_length_add_append, Nat.add_assoc, List.drop_length_add_append,
    List.append_assoc, List.append_assoc, List.append_assoc]

/-- A patch of the whole length. -/
theorem overwrite_whole (h : patch.length = b.length) : b.overwrite 0 patch = patch := by
  rw [overwrite, List.take_zero, List.drop_of_length_le (by omega), List.nil_append, List.append_nil]

/-- A patch of the length of the first part. -/
theorem overwrite_front (h : patch.length = a.length) : overwrite (a ++ b) 0 patch = patch ++ b := by
  rw [overwrite_append_left (by omega), overwrite_whole h]

end

/-- Replacing a row by a patched one patches the table. -/
theorem flatMap_set_rows {α : Type} {f : α → Bytes} {n : Nat} (h : ∀ x, (f x).length = n) {xs : List α} {i : Nat}
    {old new : α} (hold : xs[i]? = some old) {offset : Nat} {patch : Bytes} (inside : offset + patch.length ≤ n)
    (hnew : f new = (f old).overwrite offset patch) :
    (xs.set i new).flatMap f = overwrite (xs.flatMap f) (n * i + offset) patch := by
  induction xs generalizing i with
  | nil => cases hold
  | cons x xs ih =>
    cases i with
    | zero =>
      obtain rfl : x = old := Option.some.inj hold
      rw [List.set_cons_zero, List.flatMap_cons, List.flatMap_cons, hnew, Nat.mul_zero, Nat.zero_add,
        overwrite_append_left (by rwa [h])]
    | succ i =>
      have place : n * (i + 1) + offset = (f x).length + (n * i + offset) := by
        rw [h, Nat.mul_succ]
        omega
      rw [List.set_cons_succ, List.flatMap_cons, List.flatMap_cons, ih hold, place, overwrite_append_right]

/-! Several patches. -/

section

variable {α : Type} {start : α → Nat} {patch : α → Bytes}

/-- What no patch covers stays as it is. -/
theorem getElem?_foldl_overwrite_of_uncovered {edits : List α} {b : Bytes}
    (h : ∀ e ∈ edits, start e + (patch e).length ≤ b.length) {k : Nat}
    (uncovered : ∀ e ∈ edits, ¬ (start e ≤ k ∧ k < start e + (patch e).length)) :
    (edits.foldl (fun b e => b.overwrite (start e) (patch e)) b)[k]? = b[k]? := by
  induction edits generalizing b with
  | nil => rfl
  | cons e edits ih =>
    have hlen := length_overwrite (h e List.mem_cons_self)
    rw [List.foldl_cons, ih]
    · rw [getElem?_overwrite (h e List.mem_cons_self), if_neg (uncovered e List.mem_cons_self)]
    · intro other hother
      rw [hlen]
      exact h other (List.mem_cons_of_mem e hother)
    · intro other hother
      exact uncovered other (List.mem_cons_of_mem e hother)

end

end Payphone.Bytes
