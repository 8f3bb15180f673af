import Payphone.Lcd.Report
import Payphone.Proofs.Lcd.Slots
import Payphone.Proofs.Rows
import Payphone.Proofs.Text.Lines

/-!
The report on a table of local call determination, read back.

The report is written in one walk over the exchanges, which decides at every exchange what stands in front of its
cell. This file shows that

1. a symbol tells its class (`rateSymbol_injective`), and so does a cell of six characters (`cell_injective`);
2. the walk writes the lines of a grid of four blocks of twenty rows, and nothing else (`lines_report`);
3. the cell of an exchange stands in the row of its tens, at the place of its last digit (`getElem?_grid_row`,
   `getElem?_cells`).
-/
namespace Payphone.Lcd

/-! Symbols. -/

theorem rateSymbols_of_number : ∀ n < 16, 5 ≤ n → rateSymbols[n]? = some (Text.rightAligned 3 n) := by decide

/-- From five on, the symbol of a class is its number. -/
theorem rateSymbol_of_number {rate : UInt8} (h : 5 ≤ rate.toNat) :
    rateSymbol rate = Text.rightAligned 3 rate.toNat := by
  rw [rateSymbol, List.getD_eq_getElem?_getD]
  by_cases listed : rate.toNat < 16
  · rw [rateSymbols_of_number rate.toNat listed h, Option.getD_some]
  · have beyond : rateSymbols[rate.toNat]? = none := List.getElem?_eq_none (Nat.le_of_not_lt listed)
    rw [beyond, Option.getD_none]

/-- A class has its entry among the symbols, or is shown by its number. -/
theorem rateSymbol_listed_or_number (rate : UInt8) :
    rateSymbols[rate.toNat]? = some (rateSymbol rate) ∨
      16 ≤ rate.toNat ∧ rateSymbol rate = Text.rightAligned 3 rate.toNat := by
  by_cases listed : rate.toNat < rateSymbols.length
  · left
    rw [rateSymbol, List.getD_eq_getElem?_getD, List.getElem?_eq_getElem listed, Option.getD_some]
  · have beyond : 16 ≤ rate.toNat := Nat.le_of_not_lt listed
    exact .inr ⟨beyond, rateSymbol_of_number (Nat.le_trans (by decide) beyond)⟩

/-- Below five, it has a character that no number has. -/
theorem rateSymbol_of_sign : ∀ n < 5,
    (rateSymbol (UInt8.ofNat n)).toList.any fun c => c != ' ' && !c.isDigit := by decide

theorem rateSymbol_inj_of_sign : ∀ n < 5, ∀ m < 5,
    rateSymbol (UInt8.ofNat n) = rateSymbol (UInt8.ofNat m) → n = m := by decide

theorem rateSymbol_ne_of_sign {rate number : UInt8} (h : rate.toNat < 5) (h' : 5 ≤ number.toNat) :
    rateSymbol rate ≠ rateSymbol number := by
  intro same
  obtain ⟨c, hc, other⟩ := List.any_eq_true.1 (rateSymbol_of_sign rate.toNat h)
  obtain ⟨notBlank, notDigit⟩ : c ≠ ' ' ∧ ¬ c.isDigit := by simpa using other
  rw [UInt8.ofNat_toNat, same, rateSymbol_of_number h', Text.rightAligned, Text.toList_padLeft, List.mem_append] at hc
  rcases hc with blank | digit
  · exact notBlank (List.eq_of_mem_replicate blank)
  · exact Text.not_mem_decimal notDigit _ digit

theorem rateSymbol_injective : Function.Injective rateSymbol := by
  intro x y same
  apply UInt8.toNat_inj.1
  by_cases hx : x.toNat < 5
  · by_cases hy : y.toNat < 5
    · apply rateSymbol_inj_of_sign x.toNat hx y.toNat hy
      rwa [UInt8.ofNat_toNat, UInt8.ofNat_toNat]
    · exact absurd same (rateSymbol_ne_of_sign hx (Nat.le_of_not_lt hy))
  · by_cases hy : y.toNat < 5
    · exact absurd same.symm (rateSymbol_ne_of_sign hy (Nat.le_of_not_lt hx))
    · rw [rateSymbol_of_number (Nat.le_of_not_lt hx), rateSymbol_of_number (Nat.le_of_not_lt hy)] at same
      exact Text.rightAligned_injective 3 same

theorem length_rateSymbol_of_sign : ∀ n < 5, (rateSymbol (UInt8.ofNat n)).length = 3 := by decide

theorem length_rateSymbol (rate : UInt8) : (rateSymbol rate).length = 3 := by
  by_cases sign : rate.toNat < 5
  · have h := length_rateSymbol_of_sign rate.toNat sign
    rwa [UInt8.ofNat_toNat] at h
  · have digits : (Text.decimal rate.toNat).length ≤ 3 :=
      (Text.length_decimal_le_iff (by decide)).2 (Nat.lt_trans rate.toNat_lt (by decide))
    rw [rateSymbol_of_number (Nat.le_of_not_lt sign), Text.rightAligned, Text.length_padLeft, Nat.max_eq_left digits]

theorem single_rateSymbol (rate : UInt8) : Text.Single (rateSymbol rate) := by
  by_cases sign : rate.toNat < 5
  · have signs : ∀ n < 5, Text.Single (rateSymbol (UInt8.ofNat n)) := by decide
    have h := signs rate.toNat sign
    rwa [UInt8.ofNat_toNat] at h
  · rw [rateSymbol_of_number (Nat.le_of_not_lt sign)]
    exact Text.single_rightAligned 3 rate.toNat

namespace Table

theorem length_cell (rate : UInt8) : (cell rate).length = 6 := by
  rw [cell, String.length_append, String.length_append, length_rateSymbol]
  rfl

theorem cell_injective : Function.Injective cell := by
  intro x y same
  rw [cell, cell, String.append_left_inj, String.append_right_inj] at same
  exact rateSymbol_injective same

theorem single_cell (rate : UInt8) : Text.Single (cell rate) := by
  rw [cell, Text.single_append, Text.single_append]
  exact ⟨⟨by decide, single_rateSymbol rate⟩, by decide⟩

/-! The grid. -/

/-- The number of rows in a block. -/
def blockRows : Nat := 20

variable (t : Table)

/-- The class of the exchange that is `i` places behind the first one. -/
def classAt (i : Nat) : UInt8 := t.classes.toList.getD i 0

/-- The cells of row `i`. -/
def cells (i : Nat) : List String := (List.range 10).map fun j => cell (t.classAt (10 * i + j))

def row (i : Nat) : String := rowStart t.npa (firstExchange / 10 + i) ++ String.join (t.cells i)

def block (k : Nat) : List String := blockHeading ++ (List.range blockRows).map fun m => t.row (blockRows * k + m)

def grid : List String := (List.range 4).flatMap t.block ++ [edge]

/-! The walk. -/

/-- What stands in front of a cell if every line is begun by a line feed, the first one too. -/
def opening (npa nxx : Nat) : String :=
  (if nxx % 200 = 0 then Text.opened blockHeading else "") ++
    if nxx % 10 = 0 then "\n" ++ rowStart npa (nxx / 10) else ""

theorem opening_eq (npa nxx : Nat) :
    opening npa nxx = (if nxx = firstExchange then "\n" else "") ++ lead npa nxx := by
  have heading : Text.opened blockHeading = "\n" ++ "\n".intercalate blockHeading :=
    Text.opened_cons _ _
  rw [opening, lead, heading]
  by_cases first : nxx = firstExchange
  · rw [first]
    rfl
  · rw [if_neg first, if_neg first, String.empty_append]

/-- One step of the walk. -/
theorem opening_cell {i j : Nat} (hj : j < 10) (npa : Nat) :
    opening npa (firstExchange + (10 * i + j)) =
      if j = 0 then opening npa (firstExchange + 10 * i) else "" := by
  by_cases start : j = 0
  · rw [if_pos start, start, Nat.add_zero]
  · have from200 : firstExchange = 200 := rfl
    have hundreds : (firstExchange + (10 * i + j)) % 200 ≠ 0 := by omega
    have tens : (firstExchange + (10 * i + j)) % 10 ≠ 0 := by omega
    rw [if_neg start, opening, if_neg hundreds, if_neg tens, String.append_empty]

/-- A row opens a block if it is the first one of it. -/
theorem opening_row {k m : Nat} (hm : m < blockRows) (npa : Nat) :
    opening npa (firstExchange + 10 * (blockRows * k + m)) =
      (if m = 0 then Text.opened blockHeading else "") ++
        ("\n" ++ rowStart npa (firstExchange / 10 + (blockRows * k + m))) := by
  rw [blockRows] at hm ⊢
  have from200 : firstExchange = 200 := rfl
  have tens : (firstExchange + 10 * (20 * k + m)) % 10 = 0 := by omega
  have number : (firstExchange + 10 * (20 * k + m)) / 10 = firstExchange / 10 + (20 * k + m) := by omega
  rw [opening, if_pos tens, number]
  by_cases first : m = 0
  · have hundreds : (firstExchange + 10 * (20 * k + m)) % 200 = 0 := by omega
    rw [if_pos first, if_pos hundreds]
  · have hundreds : (firstExchange + 10 * (20 * k + m)) % 200 ≠ 0 := by omega
    rw [if_neg first, if_neg hundreds]

/-- The walk along a row. -/
theorem walk_row (i : Nat) :
    String.join ((List.range 10).map fun j =>
      opening t.npa (firstExchange + (10 * i + j)) ++ cell (t.classAt (10 * i + j))) =
        opening t.npa (firstExchange + 10 * i) ++ String.join (t.cells i) := by
  rw [cells, ← Text.join_led]
  congr 1
  apply List.map_congr_left
  intro j hj
  rw [opening_cell (List.mem_range.1 hj)]

/-- The walk along the rows of a block. -/
theorem walk_block (k : Nat) :
    String.join ((List.range blockRows).map fun m =>
      opening t.npa (firstExchange + 10 * (blockRows * k + m)) ++ String.join (t.cells (blockRows * k + m))) =
        Text.opened (t.block k) := by
  have rows : ∀ m ∈ List.range blockRows,
      opening t.npa (firstExchange + 10 * (blockRows * k + m)) ++ String.join (t.cells (blockRows * k + m)) =
        (if m = 0 then Text.opened blockHeading else "") ++ ("\n" ++ t.row (blockRows * k + m)) := by
    intro m hm
    rw [opening_row (List.mem_range.1 hm), row]
    simp only [String.append_assoc]
  rw [List.map_congr_left rows, block, Text.opened_append, Text.opened_map]
  exact Text.join_led 19 _ _

/-- The walk along all exchanges. -/
theorem walk_grid :
    String.join ((List.range exchangeCount).map fun i =>
      opening t.npa (firstExchange + i) ++ cell (t.classAt i)) =
        String.join ((List.range 4).map fun k => Text.opened (t.block k)) := by
  have places : exchangeCount = 80 * 10 := rfl
  have rows : 80 = 4 * blockRows := rfl
  rw [places, map_range_rows, Text.join_flatMap, List.map_congr_left fun i _ => t.walk_row i, rows, map_range_rows,
    Text.join_flatMap, List.map_congr_left fun k _ => t.walk_block k]

theorem mapIdx_classes (f : Nat → UInt8 → String) :
    t.classes.toList.mapIdx f = (List.range exchangeCount).map fun i => f i (t.classAt i) := by
  apply List.ext_getElem?
  intro i
  rw [List.getElem?_mapIdx, List.getElem?_map]
  by_cases inside : i < exchangeCount
  · have there : i < t.classes.toList.length := by rwa [Vector.length_toList]
    rw [List.getElem?_range inside, List.getElem?_eq_getElem there, Option.map_some, Option.map_some, classAt,
      List.getD_eq_getElem?_getD, List.getElem?_eq_getElem there, Option.getD_some]
  · rw [List.getElem?_eq_none (by simpa using inside), List.getElem?_eq_none (by simpa using inside)]
    rfl

/-- **The walk writes the lines of the grid.** -/
theorem feed_report : "\n" ++ t.report = Text.opened t.grid ++ "\n" := by
  have steps : ∀ i ∈ List.range exchangeCount, opening t.npa (firstExchange + i) ++ cell (t.classAt i) =
      (if i = 0 then "\n" else "") ++ (lead t.npa (firstExchange + i) ++ cell (t.classAt i)) := by
    intro i _
    have first : firstExchange + i = firstExchange ↔ i = 0 := by omega
    simp only [opening_eq, first, String.append_assoc]
  have walk : "\n" ++ String.join ((List.range exchangeCount).map fun i =>
      lead t.npa (firstExchange + i) ++ cell (t.classAt i)) =
        String.join ((List.range 4).map fun k => Text.opened (t.block k)) := by
    rw [← t.walk_grid, List.map_congr_left steps]
    exact (Text.join_led 799 _ _).symm
  rw [report, mapIdx_classes, grid, Text.opened_append, Text.opened_flatMap, ← walk, Text.opened]
  simp only [String.append_assoc, List.map_cons, List.map_nil, String.join_cons, String.join_nil, String.append_empty]

theorem rowStart_eq (npa tens : Nat) :
    rowStart npa tens = "| " ++ Text.zeroPadded 3 npa ++ "-" ++ Text.zeroPadded 2 tens ++ "x |" := rfl

theorem single_rowStart (npa tens : Nat) : Text.Single (rowStart npa tens) := by
  have signs : Text.Single "| " ∧ Text.Single "-" ∧ Text.Single "x |" := by decide
  simp only [rowStart_eq, Text.single_append, Text.single_zeroPadded, signs, and_self]

theorem single_grid : ∀ line ∈ t.grid, Text.Single line := by
  have heading : ∀ line ∈ blockHeading, Text.Single line := by decide
  intro line h
  rcases List.mem_append.1 h with inBlock | last
  · obtain ⟨k, -, hk⟩ := List.mem_flatMap.1 inBlock
    rcases List.mem_append.1 hk with head | rows
    · exact heading line head
    · obtain ⟨m, -, rfl⟩ := List.mem_map.1 rows
      rw [row, Text.single_append]
      refine ⟨single_rowStart _ _, Text.single_join ?_⟩
      intro text hc
      obtain ⟨j, -, rfl⟩ := List.mem_map.1 hc
      exact single_cell _
  · rw [List.mem_singleton.1 last]
    exact heading edge List.mem_cons_self

theorem lines_report : Text.Lines t.report t.grid := .of_opened t.feed_report t.single_grid

/-! Where the cells stand. -/

theorem length_block (k : Nat) : (t.block k).length = 23 := by
  rw [block, List.length_append, List.length_map, List.length_range]
  rfl

theorem getElem?_grid {k j : Nat} (hk : k < 4) (hj : j < 23) : t.grid[23 * k + j]? = (t.block k)[j]? := by
  have inside : 23 * k + j < ((List.range 4).flatMap t.block).length := by
    rw [length_flatMap_rows t.length_block, List.length_range]
    omega
  rw [grid, List.getElem?_append_left inside, getElem?_flatMap_rows t.length_block _ _ hj, List.getElem?_range hk,
    Option.bind_some]

theorem length_grid : t.grid.length = 93 := by
  rw [grid, List.length_append, length_flatMap_rows t.length_block, List.length_range]
  rfl

theorem getElem?_grid_heading {k j : Nat} (hk : k < 4) (hj : j < 3) : t.grid[23 * k + j]? = blockHeading[j]? := by
  rw [getElem?_grid t hk (Nat.lt_trans hj (by decide)), block, List.getElem?_append_left hj]

theorem getElem?_grid_row {k m : Nat} (hk : k < 4) (hm : m < blockRows) :
    t.grid[23 * k + (3 + m)]? = some (t.row (blockRows * k + m)) := by
  have inside : 3 + m < 23 := by
    rw [blockRows] at hm
    omega
  have behind : 3 + m - blockHeading.length = m := Nat.add_sub_cancel_left 3 m
  rw [getElem?_grid t hk inside, block, List.getElem?_append_right (Nat.le_add_right 3 m), behind, List.getElem?_map,
    List.getElem?_range hm, Option.map_some]

theorem getElem?_cells (i : Nat) {j : Nat} (hj : j < 10) :
    (t.cells i)[j]? = some (cell (t.classAt (10 * i + j))) := by
  rw [cells, List.getElem?_map, List.getElem?_range hj, Option.map_some]

theorem getElem?_grid_last : t.grid[92]? = some edge := by
  have blocks : ((List.range 4).flatMap t.block).length = 92 := by
    rw [length_flatMap_rows t.length_block, List.length_range]
  rw [grid, ← blocks, List.getElem?_concat_length]

theorem classOf?_eq_classAt {nxx : Nat} (low : 200 ≤ nxx) (high : nxx ≤ 999) :
    t.classOf? nxx = some (t.classAt (nxx - firstExchange)) := by
  have inside : nxx - firstExchange < exchangeCount := by
    rw [firstExchange, exchangeCount, lastExchange, firstExchange]
    omega
  have notBefore : ¬ nxx < firstExchange := Nat.not_lt.2 low
  rw [classOf?, if_neg notBefore, classAt, List.getD_eq_getElem?_getD, Vector.getElem?_toList,
    Vector.getElem?_eq_getElem inside, Option.getD_some]

theorem classOf?_eq_none {nxx : Nat} (h : nxx < 200 ∨ 999 < nxx) : t.classOf? nxx = none := by
  rw [classOf?]
  by_cases before : nxx < firstExchange
  · rw [if_pos before]
  · have beyond : exchangeCount ≤ nxx - firstExchange := by
      rw [firstExchange] at before ⊢
      rw [exchangeCount, lastExchange, firstExchange]
      omega
    rw [if_neg before, Vector.getElem?_eq_none beyond]

/-- The line of the exchanges that begin with the two digits of `tens`. -/
theorem getElem?_grid_tens {tens : Nat} (low : 20 ≤ tens) (high : tens ≤ 99) :
    t.grid[23 * (tens / 20 - 1) + 3 + tens % 20]? = some (t.row (tens - 20)) := by
  have number : tens - 20 = blockRows * (tens / 20 - 1) + tens % 20 := by
    rw [blockRows]
    omega
  rw [number, Nat.add_assoc]
  exact t.getElem?_grid_row (by omega) (Nat.mod_lt tens (by decide))

/-- The exchange of a row whose last digit is that of `nxx`. -/
theorem place_eq {nxx : Nat} (low : 200 ≤ nxx) : 10 * (nxx / 10 - 20) + nxx % 10 = nxx - firstExchange := by
  rw [firstExchange]
  omega

/-! What the report tells. -/

theorem rowStart_of_area {npa : Nat} (h : IsAreaCode npa) {tens : Nat} (two : 10 ≤ tens) :
    rowStart npa tens = "| " ++ Text.decimal npa ++ "-" ++ Text.decimal tens ++ "x |" := by
  have three : 10 ^ 2 ≤ npa := Nat.le_trans (by decide) h.1
  rw [rowStart_eq, Text.zeroPadded_of_le (by decide) three, Text.zeroPadded_of_le (by decide) (by simpa using two)]

variable {t} {u : Table}

theorem length_cells (t : Table) (i : Nat) : (t.cells i).length = 10 := by
  rw [cells, List.length_map, List.length_range]

/-- A row tells the area code and its classes. -/
theorem row_inj (ht : IsAreaCode t.npa) (hu : IsAreaCode u.npa) {i : Nat} (same : u.row i = t.row i) :
    u.npa = t.npa ∧ ∀ j < 10, u.classAt (10 * i + j) = t.classAt (10 * i + j) := by
  have two : 10 ≤ firstExchange / 10 + i := Nat.le_trans (by decide) (Nat.le_add_right 20 i)
  have dash : "-" = String.singleton '-' := rfl
  rw [row, row, rowStart_of_area ht two, rowStart_of_area hu two] at same
  simp only [String.append_assoc, String.append_right_inj, dash] at same
  rw [Text.decimal_append_inj (by decide)] at same
  simp only [String.append_right_inj] at same
  obtain ⟨area, joined⟩ := same
  refine ⟨area, ?_⟩
  have shown : ∀ v : Table, v.cells i = ((List.range 10).map fun j => v.classAt (10 * i + j)).map cell := by
    intro v
    rw [cells, List.map_map]
    rfl
  rw [shown, shown, ← String.append_left_inj "", Text.join_append_inj_of_width length_cell cell_injective (by simp)]
    at joined
  intro j hj
  exact List.map_inj_left.1 joined.1 j (List.mem_range.2 hj)

theorem eq_of_grid (ht : IsAreaCode t.npa) (hu : IsAreaCode u.npa) (same : u.grid = t.grid) :
    u.npa = t.npa ∧ ∀ nxx, u.classOf? nxx = t.classOf? nxx := by
  have rows : ∀ tens, 20 ≤ tens → tens ≤ 99 → u.row (tens - 20) = t.row (tens - 20) := by
    intro tens low high
    have line := u.getElem?_grid_tens low high
    rw [same, t.getElem?_grid_tens low high] at line
    exact (Option.some.inj line).symm
  refine ⟨(row_inj ht hu (rows 20 (Nat.le_refl 20) (by decide))).1, ?_⟩
  intro nxx
  by_cases inside : 200 ≤ nxx ∧ nxx ≤ 999
  · obtain ⟨low, high⟩ := inside
    have digit := (row_inj ht hu (rows (nxx / 10) (by omega) (by omega))).2 (nxx % 10) (by omega)
    rw [place_eq low] at digit
    rw [classOf?_eq_classAt u low high, classOf?_eq_classAt t low high, digit]
  · rw [classOf?_eq_none u (by omega), classOf?_eq_none t (by omega)]

/-- **The report shows the class of every exchange, and where it does.** The report of a table that can be reached is
four blocks of a heading and twenty rows, and a last line. A row begins with the area code and the tens of its
exchanges, and holds ten cells of six characters; each of its exchanges has its class in the cell at the place of its
last digit. So tables with equal reports have the same area code and the same classes. -/
theorem report_shows_every_class (h : Reachable t) :
    ∃ lines : List String, Text.Lines t.report lines ∧ lines.length = 93 ∧
      (∀ k < 4, ∀ j < 3, lines[23 * k + j]? = blockHeading[j]?) ∧ lines[92]? = some edge ∧
      (Text.decimal t.npa).length = 3 ∧
      (∀ tens, 20 ≤ tens → tens ≤ 99 → ∃ cells : List String,
        lines[23 * (tens / 20 - 1) + 3 + tens % 20]? =
          some ("| " ++ Text.decimal t.npa ++ "-" ++ Text.decimal tens ++ "x |" ++ String.join cells) ∧
        cells.length = 10 ∧ (∀ x ∈ cells, x.length = 6) ∧
        ∀ nxx, nxx / 10 = tens → ∃ (c : UInt8) (symbol : String),
          t.classOf? nxx = some c ∧ cells[nxx % 10]? = some (" " ++ symbol ++ " |") ∧
          (rateSymbols[c.toNat]? = some symbol ∨ 16 ≤ c.toNat ∧ symbol = Text.rightAligned 3 c.toNat)) ∧
      ∀ u, Reachable u → u.report = t.report → u.npa = t.npa ∧ ∀ nxx, u.classOf? nxx = t.classOf? nxx := by
  have area : IsAreaCode t.npa := h.wellFormed.npa
  refine ⟨t.grid, t.lines_report, t.length_grid, fun k hk j hj => t.getElem?_grid_heading hk hj, t.getElem?_grid_last,
    ?_, ?_, ?_⟩
  · have three : 10 ^ 2 ≤ t.npa := Nat.le_trans (by decide) area.1
    exact Text.length_decimal (by decide) three (Nat.lt_of_le_of_lt area.2 (by decide))
  · intro tens low high
    refine ⟨t.cells (tens - 20), ?_, t.length_cells _, ?_, ?_⟩
    · have number : firstExchange / 10 + (tens - 20) = tens := Nat.add_sub_cancel' low
      rw [t.getElem?_grid_tens low high, row, number, rowStart_of_area area (by omega)]
    · intro x hx
      obtain ⟨j, -, rfl⟩ := List.mem_map.1 hx
      exact length_cell _
    · rintro nxx rfl
      refine ⟨t.classAt (nxx - firstExchange), rateSymbol (t.classAt (nxx - firstExchange)),
        t.classOf?_eq_classAt (by omega) (by omega), ?_, rateSymbol_listed_or_number _⟩
      rw [t.getElem?_cells _ (Nat.mod_lt _ (by decide)), place_eq (by omega)]
      rfl
  · intro u hu same
    have others : Text.Lines t.report u.grid := same ▸ u.lines_report
    exact eq_of_grid area hu.wellFormed.npa (others.unique t.lines_report)

/-- Class 203, which has no symbol, is shown in line 41 of the report, which differs from the report without it. -/
theorem report_shows_every_class_wide :
    ∃ start t, Table.new 0x88 408 .uncompressed = .ok start ∧ start.setClass 555 203 = .ok t ∧ Reachable start ∧
      Reachable t ∧ start.report ≠ t.report ∧
      ∃ (lines cells : List String), Text.Lines t.report lines ∧
        lines[41]? = some ("| " ++ Text.decimal 408 ++ "-" ++ Text.decimal 55 ++ "x |" ++ String.join cells) ∧
        cells[5]? = some " 203 |" := by
  have made : Table.new 0x88 408 .uncompressed =
      .ok ⟨0x88, 408, .uncompressed, Vector.replicate exchangeCount 0⟩ := rfl
  obtain ⟨t, ht⟩ := (exists_setClass_iff ⟨0x88, 408, .uncompressed, Vector.replicate exchangeCount 0⟩ 555 203).2
    (by decide)
  have begun := Reachable.new made
  have reached := begun.setClass ht
  have own : t.classOf? 555 = some 203 := by rw [classOf?_setClass ht, if_pos rfl]
  have area : t.npa = 408 := by
    obtain ⟨-, -, rfl⟩ := setClass_eq_ok_iff.1 ht
    rfl
  obtain ⟨lines, hlines, -, -, -, -, shown, tells⟩ := report_shows_every_class reached
  obtain ⟨cells, hline, -, -, inRow⟩ := shown 55 (by decide) (by decide)
  obtain ⟨c, symbol, hc, hcell, hsymbol⟩ := inRow 555 rfl
  obtain rfl : 203 = c := Option.some.inj (own.symm.trans hc)
  refine ⟨_, t, made, ht, begun, reached, ?_, lines, cells, hlines, area ▸ hline, ?_⟩
  · intro same
    have classes := (tells _ begun same).2 555
    rw [own] at classes
    exact absurd classes (by decide)
  · rcases hsymbol with listed | ⟨-, rfl⟩
    · have unlisted : rateSymbols[(203 : UInt8).toNat]? = none := rfl
      exact absurd (unlisted.symm.trans listed) nofun
    · exact hcell

end Table

end Payphone.Lcd
