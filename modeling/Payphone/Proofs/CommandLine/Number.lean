import Mathlib.Algebra.Group.Nat.Even
import Mathlib.Data.List.Forall2
import Mathlib.Data.Nat.Digits.Defs
import Payphone.CommandLine.Number
import Payphone.Proofs.Text.Digit

/-!
Which texts are numbers on the command line, and which numbers they are.

1. The digits that were read so far stand for a number; each further one multiplies it by the base and adds its value
   (`digitsFrom?_eq_some_iff`). So a row of digits is read as the number that it writes in positional notation
   (`digits?_eq_some_iff`), however many of them are leading zeros (`Spells.leading_zeros`).
2. A text is a number exactly if it is made of a mark of the base, at most one plus sign and at least one digit
   (`number?_eq_some_iff`). No digit is part of a mark or a sign, so a text has one such form only.
3. The readers of words and of bytes give the number if it fits, and refuse every other text (`word?_eq_some_iff`,
   `byte?_eq_some_iff`).
-/
namespace Payphone.CommandLine

variable {base n m : Nat} {c : Char} {cs : List Char} {text : String}

/-! Digits. -/

theorem digitValue?_eq_some_iff {v : Nat} : digitValue? base c = some v ↔ v < base ∧ Text.IsDigit v c := by
  have order (d e : Char) : d ≤ e ↔ d.toNat ≤ e.toNat := Iff.rfl
  rw [digitValue?, Text.isDigit_iff, Option.filter_eq_some_iff, decide_eq_true_iff]
  simp only [order, Char.reduceToNat]
  split_ifs
  · rw [Option.some.injEq]
    omega
  · rw [Option.some.injEq]
    omega
  · rw [Option.some.injEq]
    omega
  · constructor
    · rintro ⟨h, -⟩
      cases h
    · omega

/-- The characters are digits to the base, of these values. -/
def Digits (base : Nat) (values : List Nat) (cs : List Char) : Prop :=
  List.Forall₂ (fun v c => v < base ∧ Text.IsDigit v c) values cs

instance (values : List Nat) (cs : List Char) : Decidable (Digits base values cs) :=
  inferInstanceAs (Decidable (List.Forall₂ _ values cs))

/-- The characters are the digits of the number in positional notation, the highest first. -/
def Spells (base : Nat) (cs : List Char) (n : Nat) : Prop :=
  ∃ values, Digits base values cs ∧ n = Nat.ofDigits base values.reverse

theorem ofDigits_highest_first (base v : Nat) (values : List Nat) :
    Nat.ofDigits base (v :: values).reverse = v * base ^ values.length + Nat.ofDigits base values.reverse := by
  rw [List.reverse_cons, Nat.ofDigits_append, Nat.ofDigits_singleton, List.length_reverse, Nat.mul_comm, Nat.add_comm]

/-- Reading the first digit keeps the number that all digits stand for behind `n`. -/
theorem ofDigits_read (base n v : Nat) (values : List Nat) :
    (n * base + v) * base ^ values.length + Nat.ofDigits base values.reverse =
      n * base ^ (v :: values).length + Nat.ofDigits base (v :: values).reverse := by
  calc (n * base + v) * base ^ values.length + Nat.ofDigits base values.reverse
      = n * (base * base ^ values.length) + (v * base ^ values.length + Nat.ofDigits base values.reverse) := by
        rw [Nat.add_mul, Nat.mul_assoc, Nat.add_assoc]
    _ = n * base ^ (v :: values).length + Nat.ofDigits base (v :: values).reverse := by
        rw [ofDigits_highest_first, List.length_cons, Nat.pow_succ']

/-- Further digits move what was read before up by one place each. -/
theorem digitsFrom?_eq_some_iff :
    digitsFrom? base n cs = some m ↔
      ∃ values, Digits base values cs ∧ m = n * base ^ values.length + Nat.ofDigits base values.reverse := by
  induction cs generalizing n with
  | nil =>
    simp only [digitsFrom?, Digits, List.forall₂_nil_right_iff, Option.some.injEq, exists_eq_left]
    rw [List.length_nil, Nat.pow_zero, Nat.mul_one, List.reverse_nil, Nat.ofDigits_nil, Nat.add_zero, eq_comm]
  | cons c cs ih =>
    rw [digitsFrom?]
    cases hv : digitValue? base c with
    | none =>
      constructor
      · intro h
        cases h
      · rintro ⟨_, digits, -⟩
        obtain ⟨v, values, digit, -, rfl⟩ := List.forall₂_cons_right_iff.1 digits
        rw [digitValue?_eq_some_iff.2 digit] at hv
        cases hv
    | some v =>
      have digit := digitValue?_eq_some_iff.1 hv
      change digitsFrom? base (n * base + v) cs = some m ↔ _
      rw [ih]
      constructor
      · rintro ⟨values, digits, rfl⟩
        exact ⟨v :: values, .cons digit digits, ofDigits_read base n v values⟩
      · rintro ⟨_, digits, rfl⟩
        obtain ⟨w, values, other, rest, rfl⟩ := List.forall₂_cons_right_iff.1 digits
        obtain rfl := digit.2.value_eq other.2
        exact ⟨values, rest, (ofDigits_read base n v values).symm⟩

theorem digits?_eq_some_iff : digits? base cs = some n ↔ cs ≠ [] ∧ Spells base cs n := by
  cases cs with
  | nil => simp [digits?]
  | cons c cs =>
    rw [digits?, if_neg (by simp), digitsFrom?_eq_some_iff]
    simp [Spells]

/-- Zeros before a number do not change it. -/
theorem Spells.leading_zeros (h : Spells base cs n) (pos : 0 < base) (k : Nat) :
    Spells base (List.replicate k '0' ++ cs) n := by
  obtain ⟨values, digits, rfl⟩ := h
  induction k with
  | zero => exact ⟨values, digits, rfl⟩
  | succ k ih =>
    obtain ⟨more, rest, same⟩ := ih
    refine ⟨0 :: more, .cons ⟨pos, by decide⟩ rest, ?_⟩
    rw [same, ofDigits_highest_first, Nat.zero_mul, Nat.zero_add]

theorem not_isDigit (hc : c = 'x' ∨ c = 'X' ∨ c = '+') (v : Nat) : ¬ Text.IsDigit v c := by
  rw [Text.isDigit_iff]
  rcases hc with rfl | rfl | rfl <;> simp only [Char.reduceToNat] <;> omega

/-- No digit is part of a mark of the base or a sign. -/
theorem Spells.not_mem (h : Spells base cs n) (hc : c = 'x' ∨ c = 'X' ∨ c = '+') : c ∉ cs := by
  obtain ⟨values, digits, -⟩ := h
  intro mem
  obtain ⟨i, inside, rfl⟩ := List.getElem_of_mem mem
  have digit := (List.Forall₂.get digits (digits.length_eq ▸ inside) inside).2
  exact not_isDigit hc _ digit

/-! Signs and marks. -/

/-- At most one plus sign. -/
def signs : List (List Char) := [[], ['+']]

/-- The bases, with what marks a number in each. -/
def marks : List (Nat × List Char) := [(10, []), (16, ['0', 'x']), (16, ['0', 'X'])]

/-- The characters are digits of the number, with at most one plus sign before them. -/
def Signed (base : Nat) (cs : List Char) (n : Nat) : Prop :=
  ∃ sign digits, sign ∈ signs ∧ digits ≠ [] ∧ Spells base digits n ∧ cs = sign ++ digits

/-- The text is the number behind a mark of its base. -/
def Writes (text : String) (n : Nat) : Prop :=
  ∃ base mark sign digits, (base, mark) ∈ marks ∧ sign ∈ signs ∧ digits ≠ [] ∧ Spells base digits n ∧
    text.toList = mark ++ (sign ++ digits)

theorem unsigned?_eq_some_iff : unsigned? base cs = some n ↔ Signed base cs n := by
  constructor
  · intro h
    rw [unsigned?.eq_def] at h
    split at h
    · rename_i digits
      obtain ⟨some, spells⟩ := digits?_eq_some_iff.1 h
      exact ⟨['+'], digits, by decide, some, spells, rfl⟩
    · obtain ⟨some, spells⟩ := digits?_eq_some_iff.1 h
      exact ⟨[], cs, by decide, some, spells, rfl⟩
  · rintro ⟨sign, digits, plus, some, spells, rfl⟩
    rcases List.mem_pair.1 plus with rfl | rfl
    · have first : ∀ rest, digits ≠ '+' :: rest := by
        rintro rest rfl
        exact spells.not_mem (.inr (.inr rfl)) List.mem_cons_self
      rw [List.nil_append, unsigned?.eq_2 base digits first]
      exact digits?_eq_some_iff.2 ⟨some, spells⟩
    · exact digits?_eq_some_iff.2 ⟨some, spells⟩

theorem writes_iff : Writes text n ↔
    Signed 10 text.toList n ∨ ∃ c cs, (c = 'x' ∨ c = 'X') ∧ text.toList = '0' :: c :: cs ∧ Signed 16 cs n := by
  constructor
  · rintro ⟨base, mark, sign, digits, hm, plus, some, spells, whole⟩
    simp only [marks, List.mem_cons, List.not_mem_nil, or_false, Prod.mk.injEq] at hm
    rcases hm with ⟨rfl, rfl⟩ | ⟨rfl, rfl⟩ | ⟨rfl, rfl⟩
    · exact .inl ⟨sign, digits, plus, some, spells, whole⟩
    · exact .inr ⟨'x', _, .inl rfl, whole, sign, digits, plus, some, spells, rfl⟩
    · exact .inr ⟨'X', _, .inr rfl, whole, sign, digits, plus, some, spells, rfl⟩
  · rintro (⟨sign, digits, plus, some, spells, whole⟩ |
      ⟨c, cs, rfl | rfl, whole, sign, digits, plus, some, spells, rfl⟩)
    · exact ⟨10, [], sign, digits, by decide, plus, some, spells, whole⟩
    · exact ⟨16, ['0', 'x'], sign, digits, by decide, plus, some, spells, whole⟩
    · exact ⟨16, ['0', 'X'], sign, digits, by decide, plus, some, spells, whole⟩

/-- What is decimal has no mark: the second character of a mark is no digit. -/
theorem Signed.not_marked (h : Signed base cs n) (hc : c = 'x' ∨ c = 'X') (rest : List Char) : cs ≠ '0' :: c :: rest := by
  obtain ⟨sign, digits, plus, -, spells, rfl⟩ := h
  intro marked
  rcases List.mem_pair.1 plus with rfl | rfl
  · rw [List.nil_append] at marked
    subst marked
    have digit : c ∈ '0' :: c :: rest := by simp
    rcases hc with rfl | rfl
    · exact spells.not_mem (.inl rfl) digit
    · exact spells.not_mem (.inr (.inl rfl)) digit
  · injection marked with plus
    exact absurd plus (by decide)

theorem number?_of_marked (hc : c = 'x' ∨ c = 'X') (h : text.toList = '0' :: c :: cs) :
    number? text = unsigned? 16 cs := by
  rcases hc with rfl | rfl
  · rw [number?, h]
    rfl
  · rw [number?, h]
    rfl

theorem number?_of_plain (h : ∀ c cs, (c = 'x' ∨ c = 'X') → text.toList ≠ '0' :: c :: cs) :
    number? text = unsigned? 10 text.toList := by
  rw [number?]
  split
  · rename_i cs whole
    exact absurd whole (h 'x' cs (.inl rfl))
  · rename_i cs whole
    exact absurd whole (h 'X' cs (.inr rfl))
  · rfl

theorem number?_eq_some_iff : number? text = some n ↔ Writes text n := by
  rw [writes_iff]
  by_cases marked : ∃ c cs, (c = 'x' ∨ c = 'X') ∧ text.toList = '0' :: c :: cs
  · obtain ⟨c, cs, hc, whole⟩ := marked
    rw [number?_of_marked hc whole, unsigned?_eq_some_iff]
    constructor
    · intro signed
      exact .inr ⟨c, cs, hc, whole, signed⟩
    · rintro (decimal | ⟨d, ds, -, same, signed⟩)
      · exact absurd whole (decimal.not_marked hc cs)
      · rw [whole] at same
        injection same with _ same
        injection same with _ same
        rw [same]
        exact signed
  · have plain : ∀ c cs, (c = 'x' ∨ c = 'X') → text.toList ≠ '0' :: c :: cs :=
      fun c cs hc whole => marked ⟨c, cs, hc, whole⟩
    rw [number?_of_plain plain, unsigned?_eq_some_iff]
    constructor
    · exact .inl
    · rintro (decimal | ⟨c, cs, hc, whole, -⟩)
      · exact decimal
      · exact absurd whole (plain c cs hc)

/-- A text writes one number at most. -/
theorem Writes.unique (h : Writes text n) (k : Writes text m) : n = m :=
  Option.some.inj ((number?_eq_some_iff.2 h).symm.trans (number?_eq_some_iff.2 k))

/-! Words and bytes. -/

theorem word?_eq_some_iff {w : UInt16} : word? text = some w ↔ Writes text w.toNat := by
  rw [← number?_eq_some_iff, word?]
  cases number? text with
  | none => simp
  | some n =>
    have word := w.toNat_lt
    by_cases fits : n ≤ 0xffff
    · have value : (UInt16.ofNat n).toNat = n := by
        rw [UInt16.toNat_ofNat', Nat.mod_eq_of_lt (by omega)]
      simp only [if_pos fits, Option.some.injEq]
      rw [← UInt16.toNat_inj, value]
    · simp only [if_neg fits, Option.some.injEq]
      constructor
      · intro h
        cases h
      · omega

theorem byte?_eq_some_iff {x : UInt8} : byte? text = some x ↔ Writes text x.toNat := by
  have byte := x.toNat_lt
  rw [← UInt8.toNat_toUInt16, ← word?_eq_some_iff, byte?]
  cases word? text with
  | none => simp
  | some w =>
    by_cases fits : w ≤ 0xff
    · have small : w.toNat ≤ 255 := UInt16.le_iff_toNat_le.1 fits
      simp only [if_pos fits, Option.some.injEq]
      rw [← UInt8.toNat_inj, ← UInt16.toNat_inj, UInt16.toNat_toUInt8, UInt8.toNat_toUInt16,
        Nat.mod_eq_of_lt (by omega)]
    · simp only [if_neg fits, Option.some.injEq]
      constructor
      · intro h
        cases h
      · rintro rfl
        rw [UInt16.le_iff_toNat_le, UInt8.toNat_toUInt16] at fits
        exact absurd (Nat.le_of_lt_succ byte) fits

theorem exists_word_iff : (∃ w, word? text = some w ∧ w.toNat = n) ↔ Writes text n ∧ n ≤ 65535 := by
  constructor
  · rintro ⟨w, hw, rfl⟩
    exact ⟨word?_eq_some_iff.1 hw, Nat.le_of_lt_succ w.toNat_lt⟩
  · rintro ⟨writes, fits⟩
    have value : (UInt16.ofNat n).toNat = n := by
      rw [UInt16.toNat_ofNat', Nat.mod_eq_of_lt (by omega)]
    exact ⟨.ofNat n, word?_eq_some_iff.2 (value.symm ▸ writes), value⟩

theorem exists_byte_iff : (∃ x, byte? text = some x ∧ x.toNat = n) ↔ Writes text n ∧ n ≤ 255 := by
  constructor
  · rintro ⟨x, hx, rfl⟩
    exact ⟨byte?_eq_some_iff.1 hx, Nat.le_of_lt_succ x.toNat_lt⟩
  · rintro ⟨writes, fits⟩
    have value : (UInt8.ofNat n).toNat = n := by
      rw [UInt8.toNat_ofNat', Nat.mod_eq_of_lt (by omega)]
    exact ⟨.ofNat n, byte?_eq_some_iff.2 (value.symm ▸ writes), value⟩

/-- A reader that gives the numbers up to a limit refuses what is no number and what is beyond the limit. -/
theorem eq_none_iff_of_limit {α : Type} {read : Option α} {toNat : α → Nat} {limit : Nat}
    (gives : ∀ n, (∃ a, read = some a ∧ toNat a = n) ↔ Writes text n ∧ n ≤ limit) :
    read = none ↔ ∀ n, Writes text n → limit < n := by
  constructor
  · rintro none n writes
    by_contra low
    obtain ⟨a, ha, -⟩ := (gives n).2 ⟨writes, Nat.le_of_not_lt low⟩
    rw [none] at ha
    cases ha
  · intro beyond
    cases read with
    | none => rfl
    | some a =>
      obtain ⟨writes, low⟩ := (gives (toNat a)).1 ⟨a, rfl, rfl⟩
      exact absurd (beyond _ writes) (Nat.not_lt_of_le low)

/-- Zeros before the digits do not change what a text writes. -/
theorem writes_leading_zeros {mark sign digits : List Char} (hm : (base, mark) ∈ marks) (hs : sign ∈ signs)
    (some : digits ≠ []) (spells : Spells base digits n) (k : Nat)
    (whole : text.toList = mark ++ (sign ++ (List.replicate k '0' ++ digits))) : Writes text n := by
  have bases : ∀ entry ∈ marks, 0 < entry.1 := by decide
  have filled : List.replicate k '0' ++ digits ≠ [] := fun none => some (List.append_eq_nil_iff.1 none).2
  exact ⟨base, mark, sign, _, hm, hs, filled, spells.leading_zeros (bases _ hm) k, whole⟩

/-- **Which texts are numbers.** A word is read exactly from the texts that write it: `0x`, `0X` or nothing, then at
most one plus sign, then at least one digit, in hexadecimal with letters of either case behind a mark and else in
decimal, which write a number up to 65535 in positional notation; a byte is read exactly from those that write a number
up to 255. Every other text is refused. Leading zeros do not count, however many there are. -/
theorem numbers_decided :
    (∀ text n, (∃ w, word? text = some w ∧ w.toNat = n) ↔ Writes text n ∧ n ≤ 65535) ∧
    (∀ text n, (∃ x, byte? text = some x ∧ x.toNat = n) ↔ Writes text n ∧ n ≤ 255) ∧
    (∀ text, word? text = none ↔ ∀ n, Writes text n → 65535 < n) ∧
    (∀ text, byte? text = none ↔ ∀ n, Writes text n → 255 < n) ∧
    ∀ base mark sign digits n k text, (base, mark) ∈ marks → sign ∈ signs → digits ≠ [] → Spells base digits n →
      text.toList = mark ++ (sign ++ (List.replicate k '0' ++ digits)) →
      Writes text n ∧ ∀ m, Writes text m → m = n := by
  refine ⟨fun _ _ => exists_word_iff, fun _ _ => exists_byte_iff, ?_, ?_, ?_⟩
  · intro text
    exact eq_none_iff_of_limit fun n => exists_word_iff
  · intro text
    exact eq_none_iff_of_limit fun n => exists_byte_iff
  · intro base mark sign digits n k text hm hs some spells whole
    have writes := writes_leading_zeros hm hs some spells k whole
    exact ⟨writes, fun m other => other.unique writes⟩

/-- A word in hexadecimal with a sign behind the mark, leading zeros and digits of either case, a byte in decimal, and a
number one beyond the largest word. -/
theorem numbers_decided_forms :
    (∃ w, word? "0x+00Ff" = some w ∧ w.toNat = 0xff) ∧ (∃ x, byte? "+137" = some x ∧ x.toNat = 137) ∧
    word? "0065536" = none := by
  have digits : Spells 16 ['F', 'f'] 0xff := ⟨[15, 15], by decide, by decide⟩
  have decimal : Spells 10 ['1', '3', '7'] 137 := ⟨[1, 3, 7], by decide, by decide⟩
  have large : Spells 10 ['6', '5', '5', '3', '6'] 65536 := ⟨[6, 5, 5, 3, 6], by decide, by decide⟩
  refine ⟨?_, ?_, ?_⟩
  · have writes := (numbers_decided.2.2.2.2 16 ['0', 'x'] ['+'] _ 0xff 2 "0x+00Ff" (by decide) (by decide) (by decide)
      digits (by decide)).1
    exact (numbers_decided.1 "0x+00Ff" 0xff).2 ⟨writes, by decide⟩
  · have writes := (numbers_decided.2.2.2.2 10 [] ['+'] _ 137 0 "+137" (by decide) (by decide) (by decide)
      decimal (by decide)).1
    exact (numbers_decided.2.1 "+137" 137).2 ⟨writes, by decide⟩
  · have only := (numbers_decided.2.2.2.2 10 [] [] _ 65536 2 "0065536" (by decide) (by decide) (by decide)
      large (by decide)).2
    refine (numbers_decided.2.2.1 "0065536").2 ?_
    intro n writes
    rw [only n writes]
    decide

end Payphone.CommandLine
