import Payphone.Text

/-!
Digits up to base sixteen, with letters of either case.

`isDigit_iff` says by their numbers which characters they are, so a reader that compares characters with the ends of
ranges is compared with it by arithmetic.
-/
namespace Payphone.Text

/-- The character is a digit of that value: `0` to `9`, or a letter of either case. -/
def IsDigit (value : Nat) (c : Char) : Prop := value < 16 ∧ (c = hexDigit value ∨ c = (hexDigit value).toUpper)

instance (value : Nat) (c : Char) : Decidable (IsDigit value c) := inferInstanceAs (Decidable (_ ∧ _))

theorem toNat_hexDigit : ∀ v < 16, (hexDigit v).toNat = if v < 10 then 48 + v else 87 + v := by decide

theorem toNat_toUpper_hexDigit : ∀ v < 16, (hexDigit v).toUpper.toNat = if v < 10 then 48 + v else 55 + v := by decide

theorem isDigit_iff {v : Nat} {c : Char} :
    IsDigit v c ↔ v < 10 ∧ c.toNat = 48 + v ∨ 10 ≤ v ∧ v < 16 ∧ (c.toNat = 87 + v ∨ c.toNat = 55 + v) := by
  by_cases low : v < 16
  · rw [IsDigit, ← Char.toNat_inj, ← Char.toNat_inj, toNat_hexDigit v low, toNat_toUpper_hexDigit v low]
    by_cases decimal : v < 10
    · rw [if_pos decimal, if_pos decimal]
      omega
    · rw [if_neg decimal, if_neg decimal]
      omega
  · rw [IsDigit]
    omega

theorem isDigit_hexDigit {v : Nat} (h : v < 16) : IsDigit v (hexDigit v) := ⟨h, .inl rfl⟩

theorem IsDigit.value_eq {v w : Nat} {c : Char} (hv : IsDigit v c) (hw : IsDigit w c) : v = w := by
  rw [isDigit_iff] at hv hw
  omega

/-- Digits are ASCII characters. -/
theorem IsDigit.toNat_lt {v : Nat} {c : Char} (h : IsDigit v c) : c.toNat < 128 := by
  rw [isDigit_iff] at h
  omega

end Payphone.Text
