import Mathlib.Algebra.Group.Nat.Even
import Mathlib.Data.List.Basic
import Payphone.Hex

/-!
Texts that tell what they show.

A value can be read off a text with more text behind it if it is known where the value ends. This file shows that for

1. texts up to a mark that they do not contain (`append_mark_inj`);
2. texts of one width (`append_inj_of_width`), which hexadecimal numbers and byte strings are (`hexByte_append_inj`,
   `encode_append_inj`);
3. decimal numbers set to the right of a column with a blank behind it (`rightAligned_append_inj`);
4. bytes shown as quoted characters, whose escapes can be read back (`quoteByte_injective`).

The statements are equivalences between texts put together, so a line of a report is read from left to right by
rewriting with them.
-/
namespace Payphone.Text

/-! Texts up to a mark. -/

theorem append_mark_inj {α : Type} {mark : α} {xs ys r s : List α} (hx : mark ∉ xs) (hy : mark ∉ ys) :
    xs ++ mark :: r = ys ++ mark :: s ↔ xs = ys ∧ r = s := by
  constructor
  · intro same
    induction xs generalizing ys with
    | nil =>
      cases ys with
      | nil => exact ⟨rfl, (List.cons.inj same).2⟩
      | cons y ys => exact absurd (List.mem_cons.2 (.inl (List.cons.inj same).1)) hy
    | cons x xs ih =>
      cases ys with
      | nil => exact absurd (List.mem_cons.2 (.inl (List.cons.inj same).1.symm)) hx
      | cons y ys =>
        obtain ⟨head, tail⟩ := List.cons.inj same
        obtain ⟨rest, behind⟩ :=
          ih (fun h => hx (List.mem_cons_of_mem x h)) (fun h => hy (List.mem_cons_of_mem y h)) tail
        exact ⟨by rw [head, rest], behind⟩
  · rintro ⟨rfl, rfl⟩
    rfl

/-! Texts of one width. -/

/-- A mark between texts stands in front of each of them but the first. -/
theorem intercalate_cons_eq_join (mark text : String) (texts : List String) :
    mark.intercalate (text :: texts) = text ++ String.join (texts.map (mark ++ ·)) := by
  induction texts generalizing text with
  | nil => simp
  | cons other texts ih =>
    rw [String.intercalate_cons_cons, ih, List.map_cons, String.join_cons]
    simp only [String.append_assoc]

section

variable {α : Type} {f : α → String} {n : Nat} (width : ∀ a, (f a).length = n) (inj : Function.Injective f)
include width inj

theorem append_inj_of_width {a b : α} {r s : String} : f a ++ r = f b ++ s ↔ a = b ∧ r = s := by
  constructor
  · intro same
    have lists := congrArg String.toList same
    rw [String.toList_append, String.toList_append] at lists
    obtain ⟨first, rest⟩ := List.append_inj lists (by rw [String.length_toList, String.length_toList, width, width])
    exact ⟨inj (String.toList_inj.1 first), String.toList_inj.1 rest⟩
  · rintro ⟨rfl, rfl⟩
    rfl

/-- A row of texts of one width tells its values, if it is known how many there are. -/
theorem join_append_inj_of_width {xs ys : List α} (count : xs.length = ys.length) {r s : String} :
    String.join (xs.map f) ++ r = String.join (ys.map f) ++ s ↔ xs = ys ∧ r = s := by
  induction xs generalizing ys with
  | nil =>
    obtain rfl : ys = [] := List.length_eq_zero_iff.1 count.symm
    simp
  | cons x xs ih =>
    cases ys with
    | nil => simp at count
    | cons y ys =>
      rw [List.map_cons, List.map_cons, String.join_cons, String.join_cons, String.append_assoc, String.append_assoc,
        append_inj_of_width width inj, ih (Nat.succ.inj count), List.cons.injEq, and_assoc]

/-- The same with a mark between the texts. -/
theorem intercalate_append_inj_of_width (mark : String) {xs ys : List α} (count : xs.length = ys.length)
    {r s : String} :
    mark.intercalate (xs.map f) ++ r = mark.intercalate (ys.map f) ++ s ↔ xs = ys ∧ r = s := by
  have markedWidth : ∀ a, (((mark ++ ·) ∘ f) a).length = mark.length + n := by
    intro a
    rw [Function.comp_apply, String.length_append, width]
  have markedInj : Function.Injective ((mark ++ ·) ∘ f) := fun a b same => inj ((String.append_right_inj mark).1 same)
  cases xs with
  | nil =>
    obtain rfl : ys = [] := List.length_eq_zero_iff.1 count.symm
    simp
  | cons x xs =>
    cases ys with
    | nil => simp at count
    | cons y ys =>
      rw [List.map_cons, List.map_cons, intercalate_cons_eq_join, intercalate_cons_eq_join, List.map_map, List.map_map,
        String.append_assoc, String.append_assoc, append_inj_of_width width inj,
        join_append_inj_of_width markedWidth markedInj (Nat.succ.inj count), List.cons.injEq, and_assoc]

end

/-! Hexadecimal. -/

theorem hexDigit_inj : ∀ a < 16, ∀ b < 16, hexDigit a = hexDigit b → a = b := by decide

theorem hexDigits_inj {width a b : Nat} (ha : a < 16 ^ width) (hb : b < 16 ^ width)
    (same : hexDigits width a = hexDigits width b) : a = b := by
  induction width generalizing a b with
  | zero => omega
  | succ width ih =>
    rw [Nat.pow_succ] at ha hb
    obtain ⟨high, low⟩ := List.append_inj same (by rw [length_hexDigits, length_hexDigits])
    have hhigh := ih (Nat.div_lt_of_lt_mul (by omega)) (Nat.div_lt_of_lt_mul (by omega)) high
    have hlow := hexDigit_inj (a % 16) (by omega) (b % 16) (by omega) (List.cons.inj low).1
    omega

theorem not_mem_hex {c : Char} (h : ∀ d < 16, c ≠ hexDigit d) (width n : Nat) : c ∉ (hex width n).toList := by
  rw [hex, String.toList_ofList]
  induction width generalizing n with
  | zero => exact List.not_mem_nil
  | succ width ih =>
    rw [hexDigits, List.mem_append, List.mem_singleton, not_or]
    exact ⟨ih (n / 16), h (n % 16) (Nat.mod_lt n (by decide))⟩

theorem not_mem_encode {c : Char} (h : ∀ d < 16, c ≠ hexDigit d) (b : Bytes) : c ∉ (Hex.encode b).toList := by
  rw [Hex.encode, String.toList_join, List.flatMap_map, List.mem_flatMap]
  rintro ⟨x, -, hx⟩
  exact not_mem_hex h 2 x.toNat hx

@[simp] theorem length_hexByte (x : UInt8) : (hexByte x).length = 2 := by
  rw [hexByte, hex, String.length_ofList, length_hexDigits]

@[simp] theorem length_hexWord (w : UInt16) : (hexWord w).length = 4 := by
  rw [hexWord, hex, String.length_ofList, length_hexDigits]

theorem hexByte_injective : Function.Injective hexByte := by
  intro x y same
  exact UInt8.toNat_inj.1 (hexDigits_inj x.toNat_lt y.toNat_lt (String.ofList_inj.1 same))

theorem hexWord_injective : Function.Injective hexWord := by
  intro v w same
  exact UInt16.toNat_inj.1 (hexDigits_inj v.toNat_lt w.toNat_lt (String.ofList_inj.1 same))

@[simp] theorem hexByte_append_inj {x y : UInt8} {r s : String} : hexByte x ++ r = hexByte y ++ s ↔ x = y ∧ r = s :=
  append_inj_of_width length_hexByte hexByte_injective

@[simp] theorem encode_append_inj {n : Nat} {v w : Vector UInt8 n} {r s : String} :
    Hex.encode v.toList ++ r = Hex.encode w.toList ++ s ↔ v = w ∧ r = s := by
  rw [Hex.encode, Hex.encode, join_append_inj_of_width length_hexByte hexByte_injective (by simp), Vector.toList_inj]

/-! Decimal. -/

theorem decimal_injective : Function.Injective decimal := by
  intro a b same
  have digits : Nat.toDigits 10 a = Nat.toDigits 10 b := String.ofList_inj.1 same
  calc a = Nat.ofDigitChars 10 (Nat.toDigits 10 a) 0 := Nat.ofDigitChars_ten_toDigits.symm
    _ = Nat.ofDigitChars 10 (Nat.toDigits 10 b) 0 := by rw [digits]
    _ = b := Nat.ofDigitChars_ten_toDigits

theorem length_decimal_le_iff {n k : Nat} (pos : 0 < k) : (decimal n).length ≤ k ↔ n < 10 ^ k := by
  rw [decimal, String.length_ofList]
  exact Nat.length_toDigits_le_iff (by decide) pos

theorem length_decimal {k n : Nat} (pos : 0 < k) (low : 10 ^ k ≤ n) (high : n < 10 ^ (k + 1)) :
    (decimal n).length = k + 1 := by
  have upper := (length_decimal_le_iff (Nat.succ_pos k)).2 high
  have lower := mt (length_decimal_le_iff pos).1 (Nat.not_lt.2 low)
  omega

theorem length_padLeft (width : Nat) (fill : Char) (text : String) :
    (padLeft width fill text).length = max width text.length := by
  rw [padLeft, String.length_append, String.length_ofList, List.length_replicate]
  omega

theorem padLeft_of_le {width : Nat} {fill : Char} {text : String} (h : width ≤ text.length) :
    padLeft width fill text = text := by
  rw [padLeft, Nat.sub_eq_zero_of_le h, List.replicate_zero, String.ofList_nil, String.empty_append]

/-- A number that is large enough is not filled up. -/
theorem zeroPadded_of_le {width n : Nat} (pos : 0 < width) (h : 10 ^ width ≤ n) :
    zeroPadded (width + 1) n = decimal n :=
  padLeft_of_le (Nat.lt_of_not_le (mt (length_decimal_le_iff pos).1 (Nat.not_lt.2 h)))

theorem not_mem_decimal {c : Char} (h : ¬ c.isDigit) (n : Nat) : c ∉ (decimal n).toList := by
  rw [decimal, String.toList_ofList]
  exact fun hc => h (Nat.isDigit_of_mem_toDigits (by decide) (by decide) hc)

/-- A number ends at the first character behind it that is not a digit. -/
theorem decimal_append_inj {mark : Char} (h : ¬ mark.isDigit) {a b : Nat} {r s : String} :
    decimal a ++ (String.singleton mark ++ r) = decimal b ++ (String.singleton mark ++ s) ↔ a = b ∧ r = s := by
  rw [← String.toList_inj]
  simp only [String.toList_append, String.toList_singleton, List.singleton_append]
  rw [append_mark_inj (not_mem_decimal h a) (not_mem_decimal h b), String.toList_inj, String.toList_inj,
    decimal_injective.eq_iff]

/-- The blanks in front of a number end at its first digit. -/
theorem dropWhile_rightAligned (width n : Nat) (rest : List Char) :
    ((rightAligned width n).toList ++ rest).dropWhile (· == ' ') = (decimal n).toList ++ rest := by
  have blank : ∀ x ∈ List.replicate (width - (decimal n).length) ' ', (x == ' ') = true := by
    intro x hx
    rw [List.eq_of_mem_replicate hx]
    rfl
  have digits : ∀ c ∈ (decimal n).toList, ¬ (c == ' ') = true := by
    intro c hc same
    exact not_mem_decimal (by decide) n (beq_iff_eq.1 same ▸ hc)
  obtain ⟨c, cs, hfirst⟩ : ∃ c cs, (decimal n).toList = c :: cs := by
    rw [decimal, String.toList_ofList]
    exact List.exists_cons_of_ne_nil Nat.toDigits_ne_nil
  rw [rightAligned, toList_padLeft, List.append_assoc, List.dropWhile_append_of_pos blank, hfirst, List.cons_append]
  exact List.dropWhile_cons_of_neg (digits c (hfirst ▸ List.mem_cons_self))

@[simp] theorem rightAligned_append_inj {width a b : Nat} {r s : String} :
    rightAligned width a ++ (" " ++ r) = rightAligned width b ++ (" " ++ s) ↔ a = b ∧ r = s := by
  constructor
  · intro same
    have lists := congrArg (fun text => text.toList.dropWhile (· == ' ')) same
    simp only [String.toList_append, dropWhile_rightAligned] at lists
    simp only [← String.toList_append, String.toList_inj] at lists
    have blank : ¬ ' '.isDigit := by decide
    exact (decimal_append_inj blank).1 lists
  · rintro ⟨rfl, rfl⟩
    rfl

theorem rightAligned_injective (width : Nat) : Function.Injective (rightAligned width) := by
  intro a b same
  have behind : rightAligned width a ++ (" " ++ "") = rightAligned width b ++ (" " ++ "") := by rw [same]
  exact (rightAligned_append_inj.1 behind).1

/-! Quoted bytes. -/

/-- The value of a lowercase hexadecimal digit. -/
def hexValue (c : Char) : Nat := if c.toNat < 58 then c.toNat - 48 else c.toNat - 87

/-- The number of the byte that an escape stands for. -/
def unescape : List Char → Nat
  | [c] => c.toNat
  | [_, '0'] => 0
  | [_, 't'] => 9
  | [_, 'n'] => 10
  | [_, 'r'] => 13
  | [_, c] => c.toNat
  | [_, _, _, low, _] => hexValue low
  | [_, _, _, high, low, _] => 16 * hexValue high + hexValue low
  | _ => 0

theorem unescape_escapeByte : ∀ n < 256, unescape (escapeByte (UInt8.ofNat n)).toList = n := by decide +kernel

theorem escapeByte_injective : Function.Injective escapeByte := by
  intro x y same
  apply UInt8.toNat_inj.1
  calc x.toNat = unescape (escapeByte (UInt8.ofNat x.toNat)).toList := (unescape_escapeByte _ x.toNat_lt).symm
    _ = unescape (escapeByte (UInt8.ofNat y.toNat)).toList := by rw [UInt8.ofNat_toNat, UInt8.ofNat_toNat, same]
    _ = y.toNat := unescape_escapeByte _ y.toNat_lt

theorem quoteByte_injective : Function.Injective quoteByte := by
  intro x y same
  apply escapeByte_injective
  have behind := (String.append_left_inj "'").1 same
  exact (String.append_right_inj "'").1 behind

/-- A number behind the last blank of a text ends the text in front of it. -/
theorem append_blank_decimal_inj {front rest : String} {a b : Nat} :
    front ++ " " ++ decimal a = rest ++ " " ++ decimal b ↔ front = rest ∧ a = b := by
  constructor
  · intro same
    have backwards := congrArg (fun text => text.toList.reverse) same
    simp only [String.toList_append, List.reverse_append, List.append_assoc] at backwards
    have blank : ∀ n, ' ' ∉ (decimal n).toList.reverse := by
      intro n
      rw [List.mem_reverse]
      exact not_mem_decimal (by decide) n
    obtain ⟨number, front⟩ := (append_mark_inj (blank a) (blank b)).1 backwards
    exact ⟨String.toList_inj.1 (List.reverse_inj.1 front),
      decimal_injective (String.toList_inj.1 (List.reverse_inj.1 number))⟩
  · rintro ⟨rfl, rfl⟩
    rfl

end Payphone.Text
