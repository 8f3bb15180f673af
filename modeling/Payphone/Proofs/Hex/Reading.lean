import Mathlib.Data.List.Forall2
import Payphone.Proofs.PackedNumber
import Payphone.Proofs.Text.Digit
import Payphone.Proofs.Text.Injective

/-!
What hexadecimal text is read as.

White space is dropped and the rest is read as its bytes in UTF-8. This file shows that

1. a row of characters and the row of its bytes are the same digits, because a character that is not ASCII has no byte
   that is a digit (`reads_utf8Chars_iff`);
2. a row of an even number of bytes is read as the bytes whose half-bytes its digits are, or it is refused at its
   first byte that is no digit (`decodeDigits_spec`);
3. without its white space, text that was written with blanks between bytes is text that was written without them
   (`strip_spaced`).

`parse_decides` puts this together for every text.
-/
namespace Payphone.Hex

open PackedNumber (nibbles length_nibbles)

/-! Digits as bytes. -/

/-- The byte is an ASCII digit of that value, of either case. -/
def IsDigitByte (value : Nat) (x : UInt8) : Prop := Text.IsDigit value (Char.ofNat x.toNat)

theorem toNat_latin1 (x : UInt8) : (Char.ofNat x.toNat).toNat = x.toNat := by
  have byte := x.toNat_lt
  have valid : x.toNat.isValidChar := .inl (by omega)
  rw [Char.ofNat, dif_pos valid]
  rfl

theorem digitValue?_eq_some_iff {x : UInt8} {v : Nat} : digitValue? x = some v ↔ IsDigitByte v x := by
  rw [IsDigitByte, Text.isDigit_iff, toNat_latin1, digitValue?]
  simp only [UInt8.le_iff_toNat_le, UInt8.reduceToNat]
  split_ifs
  · rw [Option.some.injEq]
    omega
  · rw [Option.some.injEq]
    omega
  · rw [Option.some.injEq]
    omega
  · constructor
    · intro h
      cases h
    · intro h
      omega

theorem exists_isDigitByte_iff {x : UInt8} : (∃ v, IsDigitByte v x) ↔ digitValue? x ≠ none := by
  rw [Option.ne_none_iff_exists']
  simp only [digitValue?_eq_some_iff]

instance (x : UInt8) : Decidable (∃ v, IsDigitByte v x) := decidable_of_iff _ exists_isDigitByte_iff.symm

theorem digitAt_of_digit {x : UInt8} {v : Nat} (h : IsDigitByte v x) (position : Nat) : digitAt position x = .ok v := by
  rw [digitAt, digitValue?_eq_some_iff.2 h]

theorem digitAt_of_stray {x : UInt8} (h : ¬ ∃ v, IsDigitByte v x) (position : Nat) :
    digitAt position x = .error (.badDigit x position) := by
  rw [exists_isDigitByte_iff, not_not] at h
  rw [digitAt, h]

/-- The bytes of a character are the character itself if it is ASCII, and else the first of them is beyond ASCII. -/
theorem utf8EncodeChar_cases (c : Char) :
    (c.toNat < 128 ∧ String.utf8EncodeChar c = [UInt8.ofNat c.toNat]) ∨
    (128 ≤ c.toNat ∧ ∃ x rest, String.utf8EncodeChar c = x :: rest ∧ 128 ≤ x.toNat) := by
  by_cases ascii : c.toNat < 128
  · have low : c.val.toNat ≤ 127 := Nat.le_of_lt_succ ascii
    refine .inl ⟨ascii, ?_⟩
    rw [String.utf8EncodeChar]
    exact if_pos low
  · have high : ¬ c.val.toNat ≤ 127 := fun low => ascii (Nat.lt_succ_of_le low)
    refine .inr ⟨Nat.le_of_not_lt ascii, ?_⟩
    rw [String.utf8EncodeChar]
    simp only [if_neg high]
    -- two, three or four bytes
    split_ifs <;> refine ⟨_, _, rfl, ?_⟩ <;> rw [UInt8.toNat_ofNat'] <;> omega

/-- The bytes are digits of these values. -/
def Reads (values : List Nat) (digits : Bytes) : Prop := List.Forall₂ IsDigitByte values digits

theorem Reads.unique {values others : List Nat} {digits : Bytes} (h : Reads values digits) (k : Reads others digits) :
    values = others := by
  have digit : Relator.LeftUnique IsDigitByte := fun _ _ _ hv hw => Text.IsDigit.value_eq hv hw
  exact List.left_unique_forall₂' digit h k

/-- Characters are digits of some values exactly if their bytes are. -/
theorem reads_utf8Chars_iff (values : List Nat) (cs : List Char) :
    Reads values (Text.utf8Chars cs) ↔ List.Forall₂ Text.IsDigit values cs := by
  induction cs generalizing values with
  | nil =>
    rw [Reads, List.forall₂_nil_right_iff]
    exact List.forall₂_nil_right_iff
  | cons c cs ih =>
    rw [Text.utf8Chars, List.flatMap_cons, ← Text.utf8Chars, List.forall₂_cons_right_iff]
    rcases utf8EncodeChar_cases c with ⟨ascii, hc⟩ | ⟨beyond, x, rest, hc, hx⟩
    · have same : Char.ofNat (UInt8.ofNat c.toNat).toNat = c := by
        rw [UInt8.toNat_ofNat', Nat.mod_eq_of_lt (by omega), Char.ofNat_toNat]
      rw [hc, List.singleton_append, Reads, List.forall₂_cons_right_iff]
      simp only [IsDigitByte, same, ← ih]
      rfl
    · -- neither the character nor the first of its bytes is a digit
      rw [hc, List.cons_append, Reads, List.forall₂_cons_right_iff]
      constructor
      · rintro ⟨v, vs, hv, -⟩
        have low := hv.toNat_lt
        rw [toNat_latin1] at low
        omega
      · rintro ⟨v, vs, hv, -⟩
        have low := hv.toNat_lt
        omega

theorem utf8Chars_eq_nil_iff (cs : List Char) : Text.utf8Chars cs = [] ↔ cs = [] := by
  cases cs with
  | nil => exact ⟨fun _ => rfl, fun _ => rfl⟩
  | cons c cs => simp [Text.utf8Chars, String.utf8EncodeChar_ne_nil]

/-! Pairs of digits. -/

theorem nibbles_cons (x : UInt8) (b : Bytes) : nibbles (x :: b) = x.toNat / 16 :: x.toNat % 16 :: nibbles b := rfl

theorem nibbles_of_halves {high low : Nat} (hh : high < 16) (hl : low < 16) (b : Bytes) :
    nibbles (UInt8.ofNat (16 * high + low) :: b) = high :: low :: nibbles b := by
  have value : (UInt8.ofNat (16 * high + low)).toNat = 16 * high + low := by
    rw [UInt8.toNat_ofNat', Nat.mod_eq_of_lt (by omega)]
  have upper : (16 * high + low) / 16 = high := by omega
  have lower : (16 * high + low) % 16 = low := by omega
  rw [nibbles_cons, value, upper, lower]

theorem nibbles_injective : Function.Injective nibbles := by
  intro b d same
  have halves : Function.Injective fun x : UInt8 => [x.toNat / 16, x.toNat % 16] := by
    intro x y pair
    injection pair with upper rest
    injection rest with lower
    exact UInt8.toNat_inj.1 (by omega)
  exact halves.list_map (map_eq_of_flatMap_rows (n := 2) (fun _ => rfl) (by decide) same)

/-- The byte is the first that is no digit, and this is its position. -/
structure FirstStray (digits : Bytes) (x : UInt8) (i : Nat) : Prop where
  there : digits[i]? = some x
  stray : ¬ ∃ v, IsDigitByte v x
  first : ∀ j < i, ∀ y ∈ digits[j]?, ∃ v, IsDigitByte v y

namespace FirstStray

variable {digits : Bytes} {x y : UInt8} {i j v : Nat}

theorem unique (hx : FirstStray digits x i) (hy : FirstStray digits y j) : x = y ∧ i = j := by
  rcases Nat.lt_trichotomy i j with before | rfl | behind
  · exact absurd (hy.first i before x hx.there) hx.stray
  · exact ⟨Option.some.inj (hx.there.symm.trans hy.there), rfl⟩
  · exact absurd (hx.first j behind y hy.there) hy.stray

theorem head (stray : ¬ ∃ v, IsDigitByte v x) : FirstStray (x :: digits) x 0 :=
  ⟨rfl, stray, fun j before => absurd before (Nat.not_lt_zero j)⟩

theorem cons (hy : IsDigitByte v y) (h : FirstStray digits x i) : FirstStray (y :: digits) x (i + 1) := by
  refine ⟨h.there, h.stray, ?_⟩
  intro j before z hz
  cases j with
  | zero =>
    obtain rfl := Option.some.inj hz
    exact ⟨v, hy⟩
  | succ j => exact h.first j (Nat.lt_of_succ_lt_succ before) z hz

/-- Where all bytes are digits there is none to be refused. -/
theorem not_of_reads {values : List Nat} (h : Reads values digits) : ¬ FirstStray digits x i := by
  rintro ⟨there, stray, -⟩
  obtain ⟨inside, rfl⟩ := List.getElem?_eq_some_iff.1 there
  exact stray ⟨_, h.get (h.length_eq ▸ inside) inside⟩

end FirstStray

/-- **Pairs of digits are read as bytes, up to the first byte that is no digit.** -/
theorem decodeDigits_spec (position : Nat) (digits : Bytes) (even : digits.length % 2 = 0) :
    (∃ b, decodeDigits position digits = .ok b ∧ Reads (nibbles b) digits) ∨
    ∃ x i, decodeDigits position digits = .error (.badDigit x (position + i)) ∧ FirstStray digits x i := by
  induction position, digits using decodeDigits.induct with
  | case1 position high low rest ih =>
    have fewer : rest.length % 2 = 0 := by
      rw [List.length_cons, List.length_cons] at even
      omega
    rw [decodeDigits]
    by_cases first : ∃ v, IsDigitByte v high
    · obtain ⟨h, hhigh⟩ := first
      rw [digitAt_of_digit hhigh]
      by_cases second : ∃ v, IsDigitByte v low
      · obtain ⟨l, hlow⟩ := second
        rw [digitAt_of_digit hlow]
        rcases ih fewer with ⟨b, hb, reads⟩ | ⟨x, i, hx, stray⟩
        · refine .inl ⟨UInt8.ofNat (16 * h + l) :: b, by rw [hb]; rfl, ?_⟩
          rw [nibbles_of_halves hhigh.1 hlow.1]
          exact .cons hhigh (.cons hlow reads)
        · refine .inr ⟨x, i + 2, ?_, .cons hhigh (.cons hlow stray)⟩
          rw [hx, Nat.add_comm i 2, Nat.add_assoc]
          rfl
      · rw [digitAt_of_stray second]
        exact .inr ⟨low, 1, rfl, .cons hhigh (.head second)⟩
    · rw [digitAt_of_stray first]
      exact .inr ⟨high, 0, rfl, .head first⟩
  | case2 digits position short =>
    obtain rfl : digits = [] := by
      match digits with
      | [] => rfl
      | [x] => simp at even
      | high :: low :: rest => exact absurd rfl (short high low rest)
    exact .inl ⟨[], rfl, .nil⟩

theorem decodeDigits_eq_ok_iff {digits : Bytes} (even : digits.length % 2 = 0) (position : Nat) (b : Bytes) :
    decodeDigits position digits = .ok b ↔ Reads (nibbles b) digits := by
  rcases decodeDigits_spec position digits even with ⟨d, hd, reads⟩ | ⟨x, i, hx, stray⟩
  · rw [hd]
    constructor
    · intro same
      obtain rfl := Except.ok.inj same
      exact reads
    · intro others
      rw [nibbles_injective (reads.unique others)]
  · rw [hx]
    constructor
    · intro h
      cases h
    · intro reads
      exact absurd stray (FirstStray.not_of_reads reads)

theorem decodeDigits_eq_error_iff {digits : Bytes} (even : digits.length % 2 = 0) (position : Nat) (e : ParseError) :
    decodeDigits position digits = .error e ↔ ∃ x i, e = .badDigit x (position + i) ∧ FirstStray digits x i := by
  rcases decodeDigits_spec position digits even with ⟨d, hd, reads⟩ | ⟨x, i, hx, stray⟩
  · rw [hd]
    constructor
    · intro h
      cases h
    · rintro ⟨x, i, -, stray⟩
      exact absurd stray (FirstStray.not_of_reads reads)
  · rw [hx]
    constructor
    · intro h
      exact ⟨x, i, (Except.error.inj h).symm, stray⟩
    · rintro ⟨y, j, rfl, other⟩
      obtain ⟨rfl, rfl⟩ := stray.unique other
      rfl

/-! White space. -/

/-- The characters that are no white space. -/
def strip (cs : List Char) : List Char := cs.filter fun c => !Text.isBlank c

/-- The second row is the first one with white space put in, anywhere. -/
inductive Blanked : List Char → List Char → Prop
  | nil : Blanked [] []
  | keep (c : Char) {cs spaced : List Char} (h : Blanked cs spaced) : Blanked (c :: cs) (c :: spaced)
  | blank {c : Char} (hc : Text.isBlank c = true) {cs spaced : List Char} (h : Blanked cs spaced) :
    Blanked cs (c :: spaced)

theorem strip_append (cs ds : List Char) : strip (cs ++ ds) = strip cs ++ strip ds := List.filter_append cs ds

theorem Blanked.strip_eq {cs spaced : List Char} (h : Blanked cs spaced) : strip spaced = strip cs := by
  induction h with
  | nil => rfl
  | keep c h ih =>
    simp only [strip, List.filter_cons] at ih ⊢
    rw [ih]
  | blank hc h ih =>
    rw [strip, List.filter_cons_of_neg (by rw [hc]; decide)]
    exact ih

/-! Text that was written. -/

theorem not_isBlank_hexDigit : ∀ v < 16, Text.isBlank (Text.hexDigit v) = false := by decide

theorem toList_hexByte (x : UInt8) :
    (Text.hexByte x).toList = [Text.hexDigit (x.toNat / 16), Text.hexDigit (x.toNat % 16)] := by
  have byte := x.toNat_lt
  have upper : x.toNat / 16 % 16 = x.toNat / 16 := Nat.mod_eq_of_lt (by omega)
  rw [Text.hexByte, Text.hex, String.toList_ofList, Text.hexDigits, Text.hexDigits, Text.hexDigits, upper]
  rfl

theorem strip_hexByte (x : UInt8) : strip (Text.hexByte x).toList = (Text.hexByte x).toList := by
  have byte := x.toNat_lt
  rw [toList_hexByte, strip, List.filter_eq_self]
  intro c hc
  rcases List.mem_pair.1 hc with rfl | rfl
  · rw [not_isBlank_hexDigit _ (by omega)]
    rfl
  · rw [not_isBlank_hexDigit _ (by omega)]
    rfl

theorem toList_encode (b : Bytes) : (encode b).toList = (nibbles b).map Text.hexDigit := by
  rw [encode, String.toList_join, List.flatMap_map, nibbles, List.map_flatMap]
  simp only [toList_hexByte]
  rfl

/-- Bytes are written with the digits of their half-bytes. -/
theorem digits_encode (b : Bytes) : List.Forall₂ Text.IsDigit (nibbles b) (encode b).toList := by
  rw [toList_encode, List.forall₂_map_right_iff, List.forall₂_same]
  intro v hv
  obtain ⟨x, -, half⟩ := List.mem_flatMap.1 hv
  have byte := x.toNat_lt
  rcases List.mem_pair.1 half with rfl | rfl
  · exact Text.isDigit_hexDigit (by omega)
  · exact Text.isDigit_hexDigit (by omega)

theorem strip_encode (b : Bytes) : strip (encode b).toList = (encode b).toList := by
  rw [encode, String.toList_join, List.flatMap_map, strip, List.filter_flatMap]
  exact List.flatMap_congr fun x _ => strip_hexByte x

theorem strip_spaced (b : Bytes) : strip (spaced b).toList = (encode b).toList := by
  cases b with
  | nil => rfl
  | cons x b =>
    have between : ∀ y, strip (" " ++ Text.hexByte y).toList = (Text.hexByte y).toList := by
      intro y
      rw [String.toList_append, strip_append, strip_hexByte]
      rfl
    rw [spaced, List.map_cons, Text.intercalate_cons_eq_join, String.toList_append, strip_append, strip_hexByte,
      List.map_map, String.toList_join, List.flatMap_map, strip, List.filter_flatMap, encode, List.map_cons,
      String.join_cons, String.toList_append, String.toList_join, List.flatMap_map]
    exact congrArg _ (List.flatMap_congr fun y _ => between y)

/-! Texts. -/

/-- What a text comes to whose characters without white space are these. -/
inductive Parsed (cs : List Char) : Except ParseError Bytes → Prop
  | empty (h : cs = []) : Parsed cs (.error .empty)
  | oddLength (h : (Text.utf8Chars cs).length % 2 = 1) : Parsed cs (.error (.oddLength (Text.utf8Chars cs).length))
  | badDigit (even : (Text.utf8Chars cs).length % 2 = 0) {x : UInt8} {i : Nat} (h : FirstStray (Text.utf8Chars cs) x i) :
    Parsed cs (.error (.badDigit x i))
  | bytes {b : Bytes} (nonempty : b ≠ []) (h : List.Forall₂ Text.IsDigit (nibbles b) cs) : Parsed cs (.ok b)

theorem length_of_digits {b : Bytes} {cs : List Char} (h : List.Forall₂ Text.IsDigit (nibbles b) cs) :
    cs.length = 2 * b.length := by
  rw [← h.length_eq, length_nibbles]

theorem parse_of_empty {text : String} (h : strip text.toList = []) : parse text = .error .empty := by
  rw [parse, ← strip, h]
  rfl

theorem parse_of_not_empty {text : String} (h : strip text.toList ≠ []) :
    parse text =
      if (Text.utf8Chars (strip text.toList)).length % 2 = 1 then
        .error (.oddLength (Text.utf8Chars (strip text.toList)).length)
      else decodeDigits 0 (Text.utf8Chars (strip text.toList)) := by
  have digits := mt (utf8Chars_eq_nil_iff _).1 h
  rw [parse, ← strip, if_neg (mt List.isEmpty_iff.1 digits)]

theorem parsed (text : String) : Parsed (strip text.toList) (parse text) := by
  by_cases empty : strip text.toList = []
  · rw [parse_of_empty empty]
    exact .empty empty
  · rw [parse_of_not_empty empty]
    by_cases odd : (Text.utf8Chars (strip text.toList)).length % 2 = 1
    · rw [if_pos odd]
      exact .oddLength odd
    · have even : (Text.utf8Chars (strip text.toList)).length % 2 = 0 := by omega
      rw [if_neg odd]
      rcases decodeDigits_spec 0 _ even with ⟨b, hb, reads⟩ | ⟨x, i, hx, stray⟩
      · have digits := (reads_utf8Chars_iff _ _).1 reads
        rw [hb]
        refine .bytes ?_ digits
        rintro rfl
        exact empty (List.length_eq_zero_iff.1 (length_of_digits digits))
      · rw [hx, Nat.zero_add]
        exact .badDigit even stray

/-- A text comes to one thing only. -/
theorem parse_eq_iff {text : String} {answer : Except ParseError Bytes} :
    parse text = answer ↔ Parsed (strip text.toList) answer := by
  constructor
  · rintro rfl
    exact parsed text
  · intro h
    cases h with
    | empty h => exact parse_of_empty h
    | oddLength odd =>
      have nonempty : strip text.toList ≠ [] := by
        intro h
        simp [h, Text.utf8Chars] at odd
      rw [parse_of_not_empty nonempty, if_pos odd]
    | badDigit even stray =>
      have nonempty : strip text.toList ≠ [] := by
        intro h
        simpa [h, Text.utf8Chars] using stray.there
      rw [parse_of_not_empty nonempty, if_neg (by omega), decodeDigits_eq_error_iff even]
      exact ⟨_, _, by rw [Nat.zero_add], stray⟩
    | bytes filled digits =>
      have nonempty : strip text.toList ≠ [] := by
        intro h
        have size := length_of_digits digits
        rw [h, List.length_nil] at size
        exact filled (List.length_eq_zero_iff.1 (by omega))
      have reads := (reads_utf8Chars_iff _ _).2 digits
      have size := reads.length_eq
      rw [length_nibbles] at size
      rw [parse_of_not_empty nonempty, if_neg (by omega), decodeDigits_eq_ok_iff (by omega)]
      exact reads

/-- The message of a refused digit names the byte and its position. -/
theorem message_badDigit_inj {x y : UInt8} {i j : Nat} :
    (ParseError.badDigit x i).message = (ParseError.badDigit y j).message ↔ x = y ∧ i = j := by
  have shape : ∀ z k, (ParseError.badDigit z k).message =
      "Hex decoding error: Invalid character " ++ Text.quoteByte z ++ " at position" ++ " " ++ Text.decimal k := by
    intro z k
    have mark : " at position " = " at position" ++ " " := rfl
    change "Hex decoding error: Invalid character " ++ Text.quoteByte z ++ " at position " ++ Text.decimal k = _
    rw [mark]
    simp only [String.append_assoc]
  rw [shape, shape, Text.append_blank_decimal_inj, String.append_left_inj, String.append_right_inj,
    Text.quoteByte_injective.eq_iff]

/-- **Hexadecimal text is decided by its characters without white space.** It is read as some bytes exactly if these
are not empty and the characters are the digits of their half-bytes, of either case. Anything else is refused: for
being empty, else for an odd number of bytes in UTF-8, else for the first of these bytes that is no digit, which the
message names with its position. So bytes are read back from what either way of writing makes of them, with white
space put in anywhere. -/
theorem parse_decides (text : String) :
    (∀ b, parse text = .ok b ↔ b ≠ [] ∧ (strip text.toList).length = 2 * b.length ∧
      List.Forall₂ Text.IsDigit (nibbles b) (strip text.toList)) ∧
    (parse text = .error .empty ↔ strip text.toList = []) ∧
    (∀ n, parse text = .error (.oddLength n) ↔ n = (Text.utf8Chars (strip text.toList)).length ∧ n % 2 = 1) ∧
    (∀ x i, parse text = .error (.badDigit x i) ↔
      (Text.utf8Chars (strip text.toList)).length % 2 = 0 ∧ FirstStray (Text.utf8Chars (strip text.toList)) x i) ∧
    (∀ x y i j, (ParseError.badDigit x i).message = (ParseError.badDigit y j).message ↔ x = y ∧ i = j) ∧
    ∀ b written, b ≠ [] → written = encode b ∨ written = spaced b → Blanked written.toList text.toList →
      parse text = .ok b := by
  refine ⟨?_, ?_, ?_, ?_, fun x y i j => message_badDigit_inj, ?_⟩
  · intro b
    rw [parse_eq_iff]
    constructor
    · rintro (_ | _ | _ | ⟨nonempty, digits⟩)
      exact ⟨nonempty, length_of_digits digits, digits⟩
    · rintro ⟨nonempty, -, digits⟩
      exact .bytes nonempty digits
  · rw [parse_eq_iff]
    constructor
    · rintro ⟨h⟩
      exact h
    · exact .empty
  · intro n
    rw [parse_eq_iff]
    constructor
    · rintro (_ | odd)
      exact ⟨rfl, odd⟩
    · rintro ⟨rfl, odd⟩
      exact .oddLength odd
  · intro x i
    rw [parse_eq_iff]
    constructor
    · rintro (_ | _ | ⟨even, stray⟩)
      exact ⟨even, stray⟩
    · rintro ⟨even, stray⟩
      exact .badDigit even stray
  · intro b written nonempty way blanks
    have digits : strip text.toList = (encode b).toList := by
      rw [blanks.strip_eq]
      rcases way with rfl | rfl
      · exact strip_encode b
      · exact strip_spaced b
    rw [parse_eq_iff, digits]
    exact .bytes nonempty (digits_encode b)

/-- A number of three bytes with white space of three kinds, one of them within a byte, and its digits in capitals; an
odd number of digits, a letter that is no digit, and a character of two bytes in the place of two digits. -/
theorem parse_decides_forms :
    parse "\t40 8\u00a0e\n00 " = .ok [0x40, 0x8e, 0] ∧ parse "408E00" = .ok [0x40, 0x8e, 0] ∧
    parse "40 8" = .error (.oddLength 3) ∧ parse "40 g0" = .error (.badDigit 0x67 2) ∧
    parse "40\u00e9" = .error (.badDigit 0xc3 2) := by
  have four : IsDigitByte 4 0x34 := digitValue?_eq_some_iff.1 rfl
  have zero : IsDigitByte 0 0x30 := digitValue?_eq_some_iff.1 rfl
  refine ⟨?_, ?_, ?_, ?_, ?_⟩
  · have blanks : Blanked (encode [0x40, 0x8e, 0]).toList "\t40 8\u00a0e\n00 ".toList :=
      .blank (by decide) (.keep '4' (.keep '0' (.blank (by decide) (.keep '8' (.blank (by decide) (.keep 'e'
        (.blank (by decide) (.keep '0' (.keep '0' (.blank (by decide) .nil))))))))))
    exact (parse_decides "\t40 8\u00a0e\n00 ").2.2.2.2.2 [0x40, 0x8e, 0] _ (by decide) (.inl rfl) blanks
  · exact ((parse_decides "408E00").1 [0x40, 0x8e, 0]).2 ⟨by decide, by decide, by decide⟩
  · exact ((parse_decides "40 8").2.2.1 3).2 (by decide)
  · have stray : FirstStray [0x34, 0x30, 0x67, 0x30] 0x67 2 := .cons four (.cons zero (.head (by decide)))
    exact ((parse_decides "40 g0").2.2.2.1 0x67 2).2 ⟨by decide, stray⟩
  · have stray : FirstStray [0x34, 0x30, 0xc3, 0xa9] 0xc3 2 := .cons four (.cons zero (.head (by decide)))
    exact ((parse_decides "40\u00e9").2.2.2.1 0xc3 2).2 ⟨by decide, stray⟩

end Payphone.Hex
