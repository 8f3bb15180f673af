import Mathlib.Algebra.Group.Nat.Even
import Payphone.Proofs.Text.Lines

/-!
What a dump shows.

A line is the offset, sixteen columns of four characters and the gutter, one character for each byte. This file shows
that

1. line `k` shows the sixteen bytes from `16 * k` on, or as many of them as there are (`dumpLines_eq`);
2. whatever the bytes are, no line holds a line feed, so the lines are found again in the dump (`split_dump`);
3. a line tells its bytes: its length tells how many they are, and each has a column of its own (`dumpLine_inj`).

So a dump tells the bytes that it shows (`dump_shows_every_byte`).
-/
namespace Payphone.Hex

variable {offset : Nat} {b d chunk other : Bytes}

/-! Parts of a line. -/

/-- One column: the byte with a comma and a blank behind it. -/
def column (x : UInt8) : String := Text.hexByte x ++ ", "

/-- All columns of a line; those of missing bytes are blank. -/
def columns (chunk : Bytes) : String :=
  String.join (chunk.map column) ++ Text.blanks (4 * (bytesPerLine - chunk.length))

/-- The characters of the bytes of a line. -/
def gutter (chunk : Bytes) : String := String.ofList (chunk.map printable)

theorem dumpLine_eq (offset : Nat) (chunk : Bytes) :
    dumpLine offset chunk = Text.zeroPadded 3 offset ++ ": " ++ columns chunk ++ gutter chunk := by
  rw [columns, ← String.append_assoc]
  rfl

theorem length_column (x : UInt8) : (column x).length = 4 := by
  rw [column, String.length_append, Text.length_hexByte]
  rfl

theorem column_injective : Function.Injective column := by
  intro x y same
  exact (Text.hexByte_append_inj.1 same).1

theorem length_join_columns (chunk : Bytes) : (String.join (chunk.map column)).length = 4 * chunk.length := by
  induction chunk with
  | nil => rfl
  | cons x chunk ih =>
    rw [List.map_cons, String.join_cons, String.length_append, length_column, ih, List.length_cons]
    omega

theorem length_columns (fits : chunk.length ≤ 16) : (columns chunk).length = 64 := by
  rw [columns, String.length_append, length_join_columns, Text.blanks, String.length_ofList, List.length_replicate,
    bytesPerLine]
  omega

theorem length_gutter (chunk : Bytes) : (gutter chunk).length = chunk.length := by
  rw [gutter, String.length_ofList, List.length_map]

theorem length_dumpLine (fits : chunk.length ≤ 16) (offset : Nat) :
    (dumpLine offset chunk).length = (Text.zeroPadded 3 offset).length + 66 + chunk.length := by
  rw [dumpLine_eq, String.length_append, String.length_append, String.length_append, length_columns fits, length_gutter]
  rfl

/-! One line. -/

theorem printable_eq (x : UInt8) : printable x = if 0x20 ≤ x ∧ x ≤ 0x7e then Char.ofNat x.toNat else '.' := by
  have top : x < 0x7f ↔ x ≤ 0x7e := by
    rw [UInt8.lt_iff_toNat_lt, UInt8.le_iff_toNat_le]
    exact Nat.lt_succ_iff
  simp only [printable, top]

theorem printable_ne_feed : ∀ n < 256, '\n' ≠ printable (UInt8.ofNat n) := by decide +kernel

theorem single_gutter (chunk : Bytes) : Text.Single (gutter chunk) := by
  rw [Text.Single, gutter, String.toList_ofList, List.mem_map]
  rintro ⟨x, -, hx⟩
  have other := printable_ne_feed x.toNat x.toNat_lt
  rw [UInt8.ofNat_toNat] at other
  exact other hx.symm

theorem single_columns (chunk : Bytes) : Text.Single (columns chunk) := by
  rw [columns, Text.single_append]
  refine ⟨Text.single_join ?_, ?_⟩
  · intro text htext
    obtain ⟨x, -, rfl⟩ := List.mem_map.1 htext
    rw [column, Text.single_append]
    exact ⟨Text.single_hexByte x, by decide⟩
  · rw [Text.Single, Text.blanks, String.toList_ofList, List.mem_replicate]
    rintro ⟨-, feed⟩
    exact absurd feed (by decide)

theorem single_dumpLine (offset : Nat) (chunk : Bytes) : Text.Single (dumpLine offset chunk) := by
  rw [dumpLine_eq, Text.single_append, Text.single_append, Text.single_append]
  exact ⟨⟨⟨Text.single_zeroPadded 3 offset, by decide⟩, single_columns chunk⟩, single_gutter chunk⟩

/-- A line tells its bytes, if its offset is known. -/
theorem dumpLine_inj (hc : chunk.length ≤ 16) (ho : other.length ≤ 16)
    (same : dumpLine offset chunk = dumpLine offset other) : chunk = other := by
  have count : chunk.length = other.length := by
    have lengths := congrArg String.length same
    rw [length_dumpLine hc, length_dumpLine ho] at lengths
    omega
  rw [dumpLine_eq, dumpLine_eq, columns, columns, count] at same
  simp only [String.append_assoc, String.append_right_inj] at same
  exact ((Text.join_append_inj_of_width length_column column_injective count).1 same).1

/-! All lines. -/

/-- The bytes of line `k`. -/
def chunkAt (b : Bytes) (k : Nat) : Bytes := (b.drop (16 * k)).take 16

theorem length_chunkAt_le (b : Bytes) (k : Nat) : (chunkAt b k).length ≤ 16 := by
  rw [chunkAt, List.length_take]
  exact Nat.min_le_left _ _

theorem dumpLines_nil (offset : Nat) : dumpLines offset [] = [] := by
  rw [dumpLines]
  rfl

theorem dumpLines_of_ne (h : b ≠ []) (offset : Nat) :
    dumpLines offset b = dumpLine offset (b.take 16) :: dumpLines (offset + 16) (b.drop 16) := by
  conv => lhs; rw [dumpLines]
  rw [if_neg (mt List.isEmpty_iff.1 h)]
  rfl

/-- Line `k` shows the bytes from `16 * k` on. -/
theorem dumpLines_eq (offset : Nat) (b : Bytes) :
    dumpLines offset b =
      (List.range ((b.length + 15) / 16)).map fun k => dumpLine (offset + 16 * k) (chunkAt b k) := by
  induction offset, b using dumpLines.induct with
  | case1 offset b empty =>
    obtain rfl := List.isEmpty_iff.1 empty
    exact dumpLines_nil offset
  | case2 offset b nonempty ih =>
    have filled : b ≠ [] := mt List.isEmpty_iff.2 nonempty
    have pos := List.length_pos_iff.2 filled
    have count : (b.length + 15) / 16 = ((b.drop 16).length + 15) / 16 + 1 := by
      rw [List.length_drop]
      omega
    have head : chunkAt b 0 = b.take 16 := by rw [chunkAt, Nat.mul_zero, List.drop_zero]
    have later : ∀ k, chunkAt (b.drop 16) k = chunkAt b (k + 1) := by
      intro k
      rw [chunkAt, chunkAt, List.drop_drop, Nat.mul_succ, Nat.add_comm 16]
    rw [dumpLines_of_ne filled, count, List.range_succ_eq_map, List.map_cons, List.map_map, head, Nat.mul_zero,
      Nat.add_zero, List.cons.injEq]
    refine ⟨rfl, ?_⟩
    calc dumpLines (offset + 16) (b.drop 16)
        = (List.range (((b.drop 16).length + 15) / 16)).map fun k =>
            dumpLine (offset + 16 + 16 * k) (chunkAt (b.drop 16) k) := ih
      _ = _ := by
        apply List.map_congr_left
        intro k _
        rw [Function.comp_apply, later, Nat.succ_eq_add_one, Nat.mul_succ, Nat.add_comm (16 * k), Nat.add_assoc]

theorem dumpLines_eq_nil_iff : dumpLines offset b = [] ↔ b = [] := by
  constructor
  · intro none
    by_contra filled
    rw [dumpLines_of_ne filled] at none
    cases none
  · rintro rfl
    exact dumpLines_nil offset

/-- Bytes with the same lines are the same, line by line. -/
theorem dumpLines_inj (same : dumpLines offset b = dumpLines offset d) : b = d := by
  have fits (e : Bytes) : (e.take 16).length ≤ 16 := by
    rw [List.length_take]
    exact Nat.min_le_left _ _
  induction offset, b using dumpLines.induct generalizing d with
  | case1 offset b empty =>
    obtain rfl := List.isEmpty_iff.1 empty
    rw [dumpLines_nil] at same
    exact (dumpLines_eq_nil_iff.1 same.symm).symm
  | case2 offset b nonempty ih =>
    have filled : b ≠ [] := mt List.isEmpty_iff.2 nonempty
    by_cases none : d = []
    · subst none
      rw [dumpLines_nil] at same
      exact absurd (dumpLines_eq_nil_iff.1 same) filled
    · rw [dumpLines_of_ne filled, dumpLines_of_ne none, List.cons.injEq] at same
      calc b = b.take 16 ++ b.drop 16 := (List.take_append_drop 16 b).symm
        _ = d.take 16 ++ d.drop 16 := congrArg₂ _ (dumpLine_inj (fits b) (fits d) same.1) (ih same.2)
        _ = d := List.take_append_drop 16 d

/-! Dumps. -/

theorem single_dumpLines (offset : Nat) (b : Bytes) : ∀ line ∈ dumpLines offset b, Text.Single line := by
  rw [dumpLines_eq]
  intro line hline
  obtain ⟨k, -, rfl⟩ := List.mem_map.1 hline
  exact single_dumpLine _ _

/-- The dump split at its line feeds is its lines; without bytes it is the empty text. -/
theorem split_dump (b : Bytes) :
    ((dump b).split '\n').toList.map (·.copy) = if b = [] then [""] else dumpLines 0 b := by
  have feed : "\n" = String.singleton '\n' := rfl
  rw [dump, feed, String.toList_split_intercalate (single_dumpLines 0 b)]
  simp only [dumpLines_eq_nil_iff]

theorem dump_injective : Function.Injective dump := by
  intro b d same
  have lines : (if b = [] then [""] else dumpLines 0 b) = if d = [] then [""] else dumpLines 0 d := by
    rw [← split_dump, ← split_dump, same]
  -- a line is never the empty text
  have long : ∀ e : Bytes, e ≠ [] → dumpLines 0 e ≠ [""] := by
    intro e filled none
    have first : dumpLine 0 (e.take 16) = "" := by
      rw [dumpLines_of_ne filled, List.cons.injEq] at none
      exact none.1
    have size := congrArg String.length first
    rw [length_dumpLine (by rw [List.length_take]; omega)] at size
    simp at size
  by_cases hb : b = []
  · by_cases hd : d = []
    · rw [hb, hd]
    · rw [if_pos hb, if_neg hd] at lines
      exact absurd lines.symm (long d hd)
  · by_cases hd : d = []
    · rw [if_neg hb, if_pos hd] at lines
      exact absurd lines (long b hb)
    · rw [if_neg hb, if_neg hd] at lines
      exact dumpLines_inj lines

/-- **A dump shows every byte at its place.** Split at line feeds, which no line holds, the dump of some bytes is one
line for every sixteen of them, and the empty text if there are none. Line `k` is the number `16 * k` in decimal with
at least three digits, a colon and a blank, sixty-four characters with two digits, a comma and a blank for each of the
bytes from there on, and then one character for each of them: itself if it is printable ASCII, and else a full stop.
So different bytes have different dumps. -/
theorem dump_shows_every_byte :
    (∀ b : Bytes, ∃ lines : List String,
      ((dump b).split '\n').toList.map (·.copy) = (if b = [] then [""] else lines) ∧
      (b = [] → dump b = "") ∧ (∀ line ∈ lines, '\n' ∉ line.toList) ∧ lines.length = (b.length + 15) / 16 ∧
      ∀ k < lines.length, ∃ columns gutter : String,
        lines[k]? = some (Text.zeroPadded 3 (16 * k) ++ ": " ++ columns ++ gutter) ∧
        columns = String.join (((b.drop (16 * k)).take 16).map fun x => Text.hexByte x ++ ", ") ++
          Text.blanks (64 - 4 * ((b.drop (16 * k)).take 16).length) ∧
        columns.length = 64 ∧
        gutter.toList = ((b.drop (16 * k)).take 16).map fun x =>
          if 0x20 ≤ x ∧ x ≤ 0x7e then Char.ofNat x.toNat else '.') ∧
    Function.Injective dump := by
  refine ⟨?_, dump_injective⟩
  intro b
  have size : (dumpLines 0 b).length = (b.length + 15) / 16 := by
    rw [dumpLines_eq, List.length_map, List.length_range]
  refine ⟨dumpLines 0 b, split_dump b, ?_, single_dumpLines 0 b, size, ?_⟩
  · rintro rfl
    rw [dump, dumpLines_nil]
    rfl
  · intro k inside
    rw [size] at inside
    refine ⟨columns (chunkAt b k), gutter (chunkAt b k), ?_, ?_, length_columns (length_chunkAt_le b k), ?_⟩
    · rw [dumpLines_eq, List.getElem?_map, List.getElem?_range inside, Option.map_some, Nat.zero_add, dumpLine_eq]
    · have blank : 64 - 4 * (chunkAt b k).length = 4 * (16 - (chunkAt b k).length) := by omega
      rw [← chunkAt, blank]
      rfl
    · rw [gutter, String.toList_ofList, ← chunkAt]
      exact List.map_congr_left fun x _ => printable_eq x

/-- Eighteen bytes, of which the last one is a line feed. -/
theorem dump_shows_every_byte_line_feed :
    let b : Bytes := List.replicate 16 0x2c ++ [0x41, 0x0a]
    ∃ lines, ((dump b).split '\n').toList.map (·.copy) = lines ∧ lines.length = 2 ∧
      lines[1]? = some ("016: 41, 0a, " ++ Text.blanks 56 ++ "A.") := by
  intro b
  obtain ⟨lines, hsplit, -, -, count, each⟩ := dump_shows_every_byte.1 b
  rw [if_neg (by decide)] at hsplit
  obtain ⟨columns, gutter, hline, hcolumns, -, hgutter⟩ := each 1 (by rw [count]; decide)
  have characters : gutter = "A." := String.toList_inj.1 hgutter
  have two : (b.length + 15) / 16 = 2 := by decide
  refine ⟨lines, hsplit, count.trans two, ?_⟩
  rw [hline, hcolumns, characters]
  rfl

end Payphone.Hex
