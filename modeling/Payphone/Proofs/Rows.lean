import Mathlib.Data.List.Basic

/-!
Lists made of rows of one length: position `n * i + j` is place `j` of row `i`, so reading by position is reading
by row and place, and equal lists are made of equal rows.
-/
namespace Payphone

variable {α β : Type} {f : α → List β} {n : Nat}

theorem length_flatMap_rows (h : ∀ a, (f a).length = n) (xs : List α) :
    (xs.flatMap f).length = n * xs.length := by
  induction xs with
  | nil => rfl
  | cons x xs ih => rw [List.flatMap_cons, List.length_append, h, ih, List.length_cons, Nat.mul_succ, Nat.add_comm]

theorem getElem?_flatMap_rows (h : ∀ a, (f a).length = n) (xs : List α) (i : Nat) {j : Nat} (hj : j < n) :
    (xs.flatMap f)[n * i + j]? = xs[i]?.bind fun a => (f a)[j]? := by
  induction xs generalizing i with
  | nil => simp
  | cons x xs ih =>
    rw [List.flatMap_cons]
    cases i with
    | zero =>
      rw [List.getElem?_append_left (by rw [h]; omega)]
      simp
    | succ i =>
      rw [List.getElem?_append_right (by rw [h, Nat.mul_succ]; omega), h,
        show n * (i + 1) + j - n = n * i + j by rw [Nat.mul_succ]; omega, ih]
      simp

/-- The part of one row's length at a row is the row. -/
theorem take_drop_flatMap_rows (h : ∀ a, (f a).length = n) (xs : List α) (i : Nat) :
    ((xs.flatMap f).drop (i * n)).take n = (xs[i]?.map f).getD [] := by
  induction xs generalizing i with
  | nil => simp
  | cons x xs ih =>
    rw [List.flatMap_cons]
    cases i with
    | zero => rw [Nat.zero_mul, List.drop_zero, List.take_left' (h x)]; rfl
    | succ i =>
      rw [Nat.succ_mul, Nat.add_comm, ← List.drop_drop, List.drop_left' (h x), ih]
      rfl

/-- Rows that are not empty can be told apart. -/
theorem map_eq_of_flatMap_rows (h : ∀ a, (f a).length = n) (pos : 0 < n) {xs ys : List α}
    (same : xs.flatMap f = ys.flatMap f) : xs.map f = ys.map f := by
  induction xs generalizing ys with
  | nil =>
    cases ys with
    | nil => rfl
    | cons y ys =>
      have size := congrArg List.length same
      rw [length_flatMap_rows h, length_flatMap_rows h, List.length_nil, List.length_cons, Nat.mul_succ] at size
      omega
  | cons x xs ih =>
    cases ys with
    | nil =>
      have size := congrArg List.length same
      rw [length_flatMap_rows h, length_flatMap_rows h, List.length_nil, List.length_cons, Nat.mul_succ] at size
      omega
    | cons y ys =>
      obtain ⟨first, rest⟩ := List.append_inj same (by rw [h, h])
      rw [List.map_cons, List.map_cons, first, ih rest]

/-- What is said of `m * n` positions is said of `m` rows of `n` places. -/
theorem map_range_rows (g : Nat → β) (m n : Nat) :
    (List.range (m * n)).map g = (List.range m).flatMap fun i => (List.range n).map fun j => g (n * i + j) := by
  induction m with
  | zero => simp
  | succ m ih =>
    rw [Nat.succ_mul, List.range_add, List.map_append, ih, List.range_succ, List.flatMap_append,
      List.flatMap_singleton, List.map_map, Nat.mul_comm m n]
    rfl

end Payphone
