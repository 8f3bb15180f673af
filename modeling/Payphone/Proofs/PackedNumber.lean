import Mathlib.Data.List.Basic
import Mathlib.Data.List.Induction
import Payphone.PackedNumber
import Payphone.Proofs.Rows

/-!
Telephone numbers packed for call screening, and what the two readers make of them.

A byte string is the row of its half-bytes (`nibbles`), so everything is said about this row. This file shows that

1. writing one code, into either half of its byte, sets one place of the row if nothing was written from there on
   (`putCode?_spec`), and so the codes of a number stand one behind the other in front of zeros (`putCodes?_spec`);
2. the screening reader gives back the digits of a packed number, and a NUL for every place left empty
   (`readScreening_packScreening`);
3. behind an end mark of its own the number is read by the other reader as well, except that the digit zero comes
   out as a colon (`readTerminated_packScreening`).

`screening_numbers_read_back` puts the three together for every number and every destination.
-/
namespace Payphone.PackedNumber

/-! The row of half-bytes. -/

theorem length_nibbles (b : Bytes) : (nibbles b).length = 2 * b.length :=
  length_flatMap_rows (n := 2) (fun _ => rfl) b

theorem getElem?_nibbles (b : Bytes) (k : Nat) :
    (nibbles b)[k]? = b[k / 2]?.map fun x => if k % 2 = 0 then x.toNat / 16 else x.toNat % 16 := by
  conv => lhs; rw [← Nat.div_add_mod k 2]
  rw [nibbles, getElem?_flatMap_rows (n := 2) (fun _ => rfl) b (k / 2) (Nat.mod_lt k (by decide))]
  cases b[k / 2]? with
  | none => rfl
  | some x =>
    rcases Nat.mod_two_eq_zero_or_one k with h | h
    · rw [h]
      rfl
    · rw [h]
      rfl

theorem nibbles_replicate_zero (n : Nat) : nibbles (List.replicate n 0) = List.replicate (2 * n) 0 := by
  induction n with
  | zero => rfl
  | succ n ih =>
    have split : nibbles (0 :: List.replicate n 0) = [0, 0] ++ nibbles (List.replicate n 0) := rfl
    rw [List.replicate_succ, split, ih, Nat.mul_succ]
    rfl

/-- Another byte sets one place of the row, if its other half is the one that was there. -/
theorem nibbles_set {b : Bytes} {i v : Nat} {x y : UInt8} (hx : b[i / 2]? = some x)
    (high : y.toNat / 16 = if i % 2 = 0 then v else x.toNat / 16)
    (low : y.toNat % 16 = if i % 2 = 0 then x.toNat % 16 else v) :
    nibbles (b.set (i / 2) y) = (nibbles b).set i v := by
  have hi : i / 2 < b.length := (List.getElem?_eq_some_iff.1 hx).1
  apply List.ext_getElem?
  intro k
  rw [getElem?_nibbles, List.getElem?_set, List.getElem?_set, getElem?_nibbles, length_nibbles]
  by_cases byte : i / 2 = k / 2
  · -- the same byte: its half is the one that is set, or the other one
    have hi' : i < 2 * b.length := by omega
    rw [if_pos byte, if_pos (byte ▸ hi), ← byte, hx, Option.map_some, Option.map_some, high, low]
    by_cases same : i = k
    · rw [if_pos same, if_pos hi', same]
      by_cases even : k % 2 = 0
      · rw [if_pos even, if_pos even]
      · rw [if_neg even, if_neg even]
    · rw [if_neg same]
      by_cases even : k % 2 = 0
      · rw [if_pos even, if_pos even, if_neg (by omega)]
      · rw [if_neg even, if_neg even, if_pos (by omega)]
  · rw [if_neg byte, if_neg fun same => byte (by rw [same])]

/-- The byte string with another half-byte `i`, and everything else as it was. -/
def setNibble (b : Bytes) (i v : Nat) : Bytes :=
  b.modify (i / 2) fun x => UInt8.ofNat (if i % 2 = 0 then 16 * v + x.toNat % 16 else 16 * (x.toNat / 16) + v)

theorem nibbles_setNibble (b : Bytes) (i : Nat) {v : Nat} (fit : v < 16) :
    nibbles (setNibble b i v) = (nibbles b).set i v := by
  cases hx : b[i / 2]? with
  | none =>
    have short : b.length ≤ i / 2 := List.getElem?_eq_none_iff.1 hx
    rw [setNibble, List.modify_eq_self short, List.set_eq_of_length_le]
    rw [length_nibbles]
    omega
  | some x =>
    have byte := x.toNat_lt
    rw [setNibble, List.modify_eq_set, hx, Option.getD_some]
    by_cases even : i % 2 = 0
    · have value : (UInt8.ofNat (16 * v + x.toNat % 16)).toNat = 16 * v + x.toNat % 16 := by
        rw [UInt8.toNat_ofNat', Nat.mod_eq_of_lt (by omega)]
      rw [if_pos even]
      apply nibbles_set hx
      · rw [if_pos even, value]
        omega
      · rw [if_pos even, value]
        omega
    · have value : (UInt8.ofNat (16 * (x.toNat / 16) + v)).toNat = 16 * (x.toNat / 16) + v := by
        rw [UInt8.toNat_ofNat', Nat.mod_eq_of_lt (by omega)]
      rw [if_neg even]
      apply nibbles_set hx
      · rw [if_neg even, value]
        omega
      · rw [if_neg even, value]
        omega

/-! Writing codes. -/

theorem toNat_high : ∀ code < 16, (UInt8.ofNat code <<< 4).toNat = 16 * code := by decide

theorem toNat_low : ∀ high < 16, ∀ code < 16,
    (UInt8.ofNat (16 * high) ||| UInt8.ofNat code).toNat = 16 * high + code := by decide

/-- A code is written into its place, if there are only zeros from there on. -/
theorem putCode?_spec {b : Bytes} {i code : Nat} (inside : i < (nibbles b).length) (fit : code < 16)
    (clear : ∀ k, i ≤ k → k < (nibbles b).length → (nibbles b)[k]? = some 0) :
    ∃ b', putCode? b i code = some b' ∧ nibbles b' = (nibbles b).set i code := by
  rw [length_nibbles] at inside clear
  have hx : b[i / 2]? = some b[i / 2] := List.getElem?_eq_getElem (by omega)
  refine ⟨_, by rw [putCode?, hx, Option.map_some], ?_⟩
  have byte := b[i / 2].toNat_lt
  -- the lower half of the byte comes last, so it is zero whichever half is written
  have empty : b[i / 2].toNat % 16 = 0 := by
    have last := clear (2 * (i / 2) + 1) (by omega) (by omega)
    have half : (2 * (i / 2) + 1) / 2 = i / 2 := by omega
    rw [getElem?_nibbles, half, hx, Option.map_some, if_neg (by omega)] at last
    exact Option.some.inj last
  by_cases even : i % 2 = 0
  · have value := toNat_high code fit
    rw [if_pos even]
    apply nibbles_set hx
    · rw [if_pos even, value]
      omega
    · rw [if_pos even, value, empty]
      omega
  · have value := toNat_low (b[i / 2].toNat / 16) (by omega) code fit
    have whole : UInt8.ofNat (16 * (b[i / 2].toNat / 16)) = b[i / 2] := by
      rw [Nat.mul_div_cancel' (Nat.dvd_of_mod_eq_zero empty), UInt8.ofNat_toNat]
    rw [whole] at value
    rw [if_neg even]
    apply nibbles_set hx
    · rw [if_neg even, value]
      omega
    · rw [if_neg even, value]
      omega

/-- **The codes stand one behind the other in front of zeros.** -/
theorem putCodes?_spec {n : Nat} {codes : List Nat} (room : codes.length ≤ 2 * n) (fit : ∀ c ∈ codes, c < 16) :
    ∃ b, putCodes? (List.replicate n 0) codes = some b ∧
      nibbles b = codes ++ List.replicate (2 * n - codes.length) 0 := by
  -- by the codes written so far, of which the last one is the one to be looked at
  induction codes using List.reverseRecOn with
  | nil => exact ⟨_, rfl, nibbles_replicate_zero n⟩
  | append_singleton codes code ih =>
    rw [List.length_append, List.length_singleton] at room
    obtain ⟨b, hput, hrow⟩ := ih (by omega) fun c hc => fit c (List.mem_append_left _ hc)
    have inside : codes.length < (nibbles b).length := by
      rw [hrow, List.length_append, List.length_replicate]
      omega
    have clear : ∀ k, codes.length ≤ k → k < (nibbles b).length → (nibbles b)[k]? = some 0 := by
      intro k hk hlen
      rw [hrow, List.length_append, List.length_replicate] at hlen
      rw [hrow, List.getElem?_append_right hk, List.getElem?_replicate, if_pos (by omega)]
    obtain ⟨b', hstep, hrow'⟩ := putCode?_spec inside (fit code (by simp)) clear
    refine ⟨b', ?_, ?_⟩
    · rw [putCodes?] at hput ⊢
      rw [List.zipIdx_append, List.foldlM_append, hput, Nat.zero_add]
      simpa using hstep
    · obtain ⟨rest, hrest⟩ : ∃ rest, 2 * n - codes.length = rest + 1 := ⟨2 * n - codes.length - 1, by omega⟩
      have fewer : 2 * n - (codes ++ [code]).length = rest := by
        rw [List.length_append, List.length_singleton]
        omega
      rw [hrow', hrow, hrest, fewer, List.replicate_succ, List.set_append_right _ _ (Nat.le_refl _), Nat.sub_self,
        List.set_cons_zero, List.append_assoc, List.singleton_append]

/-! Digits. -/

/-- The code of a digit. -/
def digitCode (d : Nat) : Nat := if d = 0 then zeroCode else d

theorem utf8_digit : ∀ d < 10, String.utf8EncodeChar (digit d) = [UInt8.ofNat (48 + d)] := by decide

theorem screeningCode_digit : ∀ d < 10, screeningCode (UInt8.ofNat (48 + d)) = digitCode d := by decide

theorem digitCode_lt : ∀ d < 10, digitCode d < 16 ∧ digitCode d ≠ terminator := by decide

theorem screeningDigits_digitCode : ∀ d < 10, screeningDigits.getD (digitCode d) '\x00' = digit d := by decide

/-- How a reader that takes every half-byte for itself shows a digit: ten is the colon, which follows nine. -/
def colonForZero (c : Char) : Char := if c = '0' then ':' else c

theorem digit_digitCode : ∀ d < 10, digit (digitCode d) = colonForZero (digit d) := by decide

theorem map_colonForZero_eq_self_iff (cs : List Char) : cs.map colonForZero = cs ↔ '0' ∉ cs := by
  induction cs with
  | nil => simp
  | cons c cs ih =>
    have first : colonForZero c = c ↔ '0' ≠ c := by
      rw [colonForZero]
      by_cases zero : c = '0'
      · rw [if_pos zero, zero]
        decide
      · rw [if_neg zero]
        exact ⟨fun _ same => zero same.symm, fun _ => rfl⟩
    rw [List.map_cons, List.cons.injEq, first, ih, List.mem_cons, not_or]

/-- A text of digits is a row of numbers below ten. -/
theorem exists_digits {cs : List Char} (h : ∀ c ∈ cs, c.isDigit) :
    ∃ ds : List Nat, cs = ds.map digit ∧ ∀ d ∈ ds, d < 10 := by
  induction cs with
  | nil => exact ⟨[], rfl, by simp⟩
  | cons c cs ih =>
    obtain ⟨ds, rfl, hds⟩ := ih fun x hx => h x (List.mem_cons_of_mem c hx)
    obtain ⟨low, high⟩ : 48 ≤ c.toNat ∧ c.toNat ≤ 57 := Char.isDigit_iff_toNat.1 (h c List.mem_cons_self)
    have number : c = digit (c.toNat - 48) := by
      rw [digit, Nat.add_sub_cancel' low, Char.ofNat_toNat]
    refine ⟨(c.toNat - 48) :: ds, ?_, ?_⟩
    · rw [List.map_cons, ← number]
    · intro d hd
      rcases List.mem_cons.1 hd with rfl | hd
      · omega
      · exact hds d hd

theorem utf8_digits {ds : List Nat} (h : ∀ d ∈ ds, d < 10) :
    Text.utf8Chars (ds.map digit) = ds.map fun d => UInt8.ofNat (48 + d) := by
  induction ds with
  | nil => rfl
  | cons d ds ih =>
    have rest : Text.utf8Chars ((d :: ds).map digit) =
        String.utf8EncodeChar (digit d) ++ Text.utf8Chars (ds.map digit) := rfl
    rw [rest, utf8_digit d (h d List.mem_cons_self), ih fun x hx => h x (List.mem_cons_of_mem d hx)]
    rfl

/-! Reading a row of codes. -/

section

variable {bytes : Bytes} {ds : List Nat} (below : ∀ d ∈ ds, d < 10) (capacity : Nat)
include below

/-- The screening reader gives the digits, and a NUL for every empty place. -/
theorem readScreening_of_row {k : Nat} (row : nibbles bytes = ds.map digitCode ++ List.replicate k 0) :
    readScreening bytes capacity =
      String.ofList ((ds.map digit ++ List.replicate k '\x00').take (capacity - 1)) := by
  have shown : ds.map ((fun n => screeningDigits.getD n '\x00') ∘ digitCode) = ds.map digit :=
    List.map_congr_left fun d hd => screeningDigits_digitCode d (below d hd)
  rw [readScreening, List.map_take, row, List.map_append, List.map_map, shown, List.map_replicate]
  rfl

/-- The other reader stops at the end mark, which no digit's code is taken for. -/
theorem readTerminated_of_row {rest : List Nat} (row : nibbles bytes = ds.map digitCode ++ terminator :: rest) :
    readTerminated bytes capacity = String.ofList (((ds.map digit).map colonForZero).take (capacity - 1)) := by
  have before : ∀ c ∈ ds.map digitCode, (c != terminator) = true := by
    intro c hc
    obtain ⟨d, hd, rfl⟩ := List.mem_map.1 hc
    exact bne_iff_ne.2 (digitCode_lt d (below d hd)).2
  have upToMark : (nibbles bytes).takeWhile (· != terminator) = ds.map digitCode := by
    rw [row, List.takeWhile_append_of_pos before, List.takeWhile_cons_of_neg (by decide), List.append_nil]
  have shown : ds.map (digit ∘ digitCode) = ds.map (colonForZero ∘ digit) :=
    List.map_congr_left fun d hd => digit_digitCode d (below d hd)
  rw [readTerminated, upToMark, List.map_take, List.map_map, shown, List.map_map]

end

/-! Numbers. -/

/-- A reader that is told a capacity gives one character less, and none if it is told none. -/
theorem max_one_sub_one (capacity : Nat) : max capacity 1 - 1 = capacity - 1 := by omega

section

variable {s : String} (digits : ∀ c ∈ s.toList, c.isDigit)
include digits

section

variable (destination : Bytes)

/-- What a packed number looks like: the codes of the digits that there is room for, and zeros behind them. -/
theorem packScreening_spec :
    ∃ ds : List Nat, s.toList = ds.map digit ∧ (∀ d ∈ ds, d < 10) ∧
      putCodes? (destination.map fun _ => 0)
        (((Text.utf8 s).take (2 * destination.length)).map screeningCode) =
          some (packScreening s destination).bytes ∧
      (packScreening s destination).consumed = min s.length (2 * destination.length) ∧
      nibbles (packScreening s destination).bytes = (ds.take (2 * destination.length)).map digitCode ++
        List.replicate (2 * destination.length - min s.length (2 * destination.length)) 0 := by
  obtain ⟨ds, hds, below⟩ := exists_digits digits
  have length : s.length = ds.length := by rw [← String.length_toList, hds, List.length_map]
  have taken : (Text.utf8 s).take (2 * destination.length) =
      (ds.take (2 * destination.length)).map fun d => UInt8.ofNat (48 + d) := by
    rw [Text.utf8, hds, utf8_digits below, List.map_take]
  have codes : ((Text.utf8 s).take (2 * destination.length)).map screeningCode =
      (ds.take (2 * destination.length)).map digitCode := by
    rw [taken, List.map_map]
    apply List.map_congr_left
    intro d hd
    exact screeningCode_digit d (below d (List.mem_of_mem_take hd))
  have cleared : destination.map (fun _ => (0 : UInt8)) = List.replicate destination.length 0 := by
    rw [List.map_const']
  have room : ((ds.take (2 * destination.length)).map digitCode).length ≤ 2 * destination.length := by
    rw [List.length_map, List.length_take]
    omega
  have fit : ∀ c ∈ (ds.take (2 * destination.length)).map digitCode, c < 16 := by
    intro c hc
    obtain ⟨d, hd, rfl⟩ := List.mem_map.1 hc
    exact (digitCode_lt d (below d (List.mem_of_mem_take hd))).1
  obtain ⟨bytes, hput, hrow⟩ := putCodes?_spec room fit
  rw [← cleared, ← codes] at hput
  have packed : (packScreening s destination).bytes = bytes := by simp only [packScreening, hput, Option.getD_some]
  refine ⟨ds, hds, below, packed ▸ hput, ?_, ?_⟩
  · simp only [packScreening, taken, List.length_map, List.length_take, length, Nat.min_comm]
  · rw [packed, hrow, List.length_map, List.length_take, length, Nat.min_comm]

theorem length_bytes_packScreening : (packScreening s destination).bytes.length = destination.length := by
  obtain ⟨ds, hds, -, -, -, row⟩ := packScreening_spec digits destination
  have length : s.length = ds.length := by rw [← String.length_toList, hds, List.length_map]
  have size := congrArg List.length row
  rw [length_nibbles, List.length_append, List.length_map, List.length_take, List.length_replicate] at size
  omega

/-- The screening reader gives back the digits that there was room for, and a NUL for every empty place. -/
theorem readScreening_packScreening (capacity : Nat) :
    readScreening (packScreening s destination).bytes capacity =
      String.ofList ((s.toList.take (min s.length (2 * destination.length)) ++
        List.replicate (2 * destination.length - min s.length (2 * destination.length)) '\x00').take
          (max capacity 1 - 1)) := by
  obtain ⟨ds, hds, below, -, -, row⟩ := packScreening_spec digits destination
  have kept : s.toList.take (min s.length (2 * destination.length)) =
      (ds.take (2 * destination.length)).map digit := by
    rw [Nat.min_comm, ← String.length_toList, ← List.take_eq_take_min, hds, List.map_take]
  rw [readScreening_of_row (fun d hd => below d (List.mem_of_mem_take hd)) capacity row, kept, max_one_sub_one]

/-- A number that fits is given back whole. -/
theorem readScreening_packScreening_of_le (fits : s.length ≤ 2 * destination.length) :
    readScreening (packScreening s destination).bytes (s.length + 1) = s := by
  have all : s.toList.take s.length = s.toList := List.take_of_length_le (Nat.le_of_eq String.length_toList)
  rw [readScreening_packScreening digits, Nat.min_eq_left fits, all, max_one_sub_one, Nat.add_sub_cancel,
    List.take_left' String.length_toList, String.ofList_toList]

section

variable (room : s.length < 2 * destination.length)
include room

/-- Behind an end mark of its own a number that leaves room for it is read up to there, with colons for zeros. -/
theorem readTerminated_packScreening (capacity : Nat) :
    readTerminated (setNibble (packScreening s destination).bytes s.length terminator) capacity =
      String.ofList ((s.toList.map colonForZero).take (max capacity 1 - 1)) := by
  obtain ⟨ds, hds, below, -, -, row⟩ := packScreening_spec digits destination
  have length : (ds.map digitCode).length = s.length := by
    rw [List.length_map, ← String.length_toList, hds, List.length_map]
  have all : ds.take (2 * destination.length) = ds := by
    rw [List.length_map] at length
    exact List.take_of_length_le (by omega)
  obtain ⟨empty, hempty⟩ : ∃ empty, 2 * destination.length - min s.length (2 * destination.length) = empty + 1 :=
    ⟨2 * destination.length - s.length - 1, by omega⟩
  have marked : nibbles (setNibble (packScreening s destination).bytes s.length terminator) =
      ds.map digitCode ++ terminator :: List.replicate empty 0 := by
    rw [nibbles_setNibble _ s.length (by decide), row, all, hempty, List.replicate_succ,
      List.set_append_right _ _ (Nat.le_of_eq length), length, Nat.sub_self, List.set_cons_zero]
  rw [readTerminated_of_row below capacity marked, hds, max_one_sub_one]

/-- So it is given back as it was exactly if it has no zero. -/
theorem readTerminated_packScreening_eq_iff {capacity : Nat} (wide : s.length < capacity) :
    readTerminated (setNibble (packScreening s destination).bytes s.length terminator) capacity = s ↔
      '0' ∉ s.toList := by
  have whole : (s.toList.map colonForZero).take (max capacity 1 - 1) = s.toList.map colonForZero := by
    apply List.take_of_length_le
    rw [List.length_map, String.length_toList]
    omega
  rw [readTerminated_packScreening digits destination room, whole, ← map_colonForZero_eq_self_iff,
    ← String.toList_inj, String.toList_ofList]

end

end

/-- **A number is packed for screening as far as there is room, whatever was there before, and its digits are what is
read.** The screening reader gives back every number that fits. The reader of terminated numbers, given an end mark
behind the number, shows every zero as a colon, so it gives back the numbers without a zero. -/
theorem screening_numbers_read_back (destination : Bytes) :
    let places := 2 * destination.length
    let m := min s.length places
    let packed := packScreening s destination
    let marked := setNibble packed.bytes m terminator
    putCodes? (destination.map fun _ => 0) (((Text.utf8 s).take places).map screeningCode) = some packed.bytes ∧
    packed.consumed = m ∧
    packed.bytes.length = destination.length ∧
    (∀ capacity, readScreening packed.bytes capacity =
      String.ofList ((s.toList.take m ++ List.replicate (places - m) '\x00').take (max capacity 1 - 1))) ∧
    (s.length ≤ places → readScreening packed.bytes (s.length + 1) = s) ∧
    (m < places →
      nibbles marked = (nibbles packed.bytes).set m terminator ∧
      (∀ capacity, readTerminated marked capacity =
        String.ofList ((s.toList.map colonForZero).take (max capacity 1 - 1))) ∧
      ∀ capacity, s.length < capacity → (readTerminated marked capacity = s ↔ '0' ∉ s.toList)) := by
  intro places m packed marked
  obtain ⟨-, -, -, put, consumed, -⟩ := packScreening_spec digits destination
  refine ⟨put, consumed, length_bytes_packScreening digits destination, readScreening_packScreening digits destination,
    readScreening_packScreening_of_le digits destination, ?_⟩
  intro free
  have room : s.length < 2 * destination.length := by omega
  have all : marked = setNibble packed.bytes s.length terminator :=
    congrArg (setNibble packed.bytes · terminator) (Nat.min_eq_left (Nat.le_of_lt room))
  refine ⟨nibbles_setNibble packed.bytes m (by decide), ?_, ?_⟩
  · rw [all]
    exact readTerminated_packScreening digits destination room
  · rw [all]
    exact fun capacity wide => readTerminated_packScreening_eq_iff digits destination room wide

end

/-- The number 9110 in three bytes with something in them: one reader gives it back, the other one does not. -/
theorem screening_numbers_read_back_emergency :
    (∀ c ∈ "9110".toList, c.isDigit) ∧
      let packed := packScreening "9110" [0xff, 0xff, 0xff]
      packed.consumed = 4 ∧ readScreening packed.bytes 5 = "9110" ∧
        readTerminated (setNibble packed.bytes 4 terminator) 5 ≠ "9110" := by
  have digits : ∀ c ∈ "9110".toList, c.isDigit := List.all_eq_true.1 rfl
  have zero : '0' ∈ "9110".toList := by simp
  obtain ⟨-, consumed, -, -, fits, free⟩ := screening_numbers_read_back digits [0xff, 0xff, 0xff]
  have noZero := (free (by decide)).2.2 5 (by decide)
  exact ⟨digits, consumed, fits (by decide), fun same => noZero.1 same zero⟩

end Payphone.PackedNumber
