import Payphone.Reader

/-!
Readers of fixed forms.

A reader of a form takes exactly the bytes of one value and fails only where they are too few (`Reads`). This holds
of every single value (`reads_value`), and from there of readers one after the other (`Reads.bind`) and of one
reader many times (`Reads.count`), so a record is read as its form says if its fields are.
-/
namespace Payphone.Reader

variable {α β γ δ : Type}

/-- The reader gives `into` of the value of the form that its input begins with, and hands on what follows; if the
input is too short for the form, the reader runs out of it. -/
def Reads (reader : Reader β) (f : FixedWidth α) (into : α → β) : Prop :=
  ∀ input,
    (f.width ≤ input.length → reader input = .ok (into (f.decode (input.take f.width)), input.drop f.width)) ∧
    (input.length < f.width → ∃ rest, reader input = .error (.ranOut rest))

theorem reads_value (f : FixedWidth α) : Reads (value f) f id := by
  intro input
  refine ⟨fun h => if_pos h, fun h => ⟨input, if_neg ?_⟩⟩
  omega

/-- One after the other: what the first reader gives decides how the second goes on. -/
theorem Reads.bind {reader : Reader β} {f : FixedWidth α} {i : α → β} {next : β → Reader δ} {g : FixedWidth γ}
    {into : α × γ → δ} (hr : Reads reader f i) (hn : ∀ a, Reads (next (i a)) g fun c => into (a, c)) :
    Reads (reader >>= next) (f.pair g) into := by
  intro input
  obtain ⟨enough, short⟩ := hr input
  constructor
  · intro h
    have hf : f.width ≤ input.length := Nat.le_trans (Nat.le_add_right _ _) h
    have hg : g.width ≤ (input.drop f.width).length := by
      rw [List.length_drop]
      exact Nat.le_sub_of_add_le' h
    have rest := (hn (f.decode (input.take f.width)) (input.drop f.width)).1 hg
    change (reader input >>= fun p => next p.1 p.2) = _
    rw [enough hf]
    change next (i (f.decode (input.take f.width))) (input.drop f.width) = _
    rw [rest]
    simp only [FixedWidth.pair, List.take_take, List.drop_drop, List.drop_take,
      Nat.min_eq_left (Nat.le_add_right _ _), Nat.add_sub_cancel_left]
  · intro h
    change ∃ rest, (reader input >>= fun p => next p.1 p.2) = _
    -- the first reader or the second one runs out
    by_cases hf : f.width ≤ input.length
    · have hg : (input.drop f.width).length < g.width := by
        rw [List.length_drop]
        have : input.length < f.width + g.width := h
        omega
      obtain ⟨rest, hrest⟩ := (hn (f.decode (input.take f.width)) (input.drop f.width)).2 hg
      rw [enough hf]
      exact ⟨rest, hrest⟩
    · obtain ⟨rest, hrest⟩ := short (by omega)
      rw [hrest]
      exact ⟨rest, rfl⟩

/-- Making a record of what the last reader gives. -/
theorem Reads.map {reader : Reader β} {f : FixedWidth α} {i : α → β} (hr : Reads reader f i) (make : β → γ) :
    Reads (reader >>= fun b => pure (make b)) f fun a => make (i a) := by
  intro input
  obtain ⟨enough, short⟩ := hr input
  change (_ → (reader input >>= fun p => pure (make p.1, p.2)) = _) ∧
    (_ → ∃ rest, (reader input >>= fun p => pure (make p.1, p.2)) = _)
  constructor
  · intro h
    rw [enough h]
    rfl
  · intro h
    obtain ⟨rest, hrest⟩ := short h
    rw [hrest]
    exact ⟨rest, rfl⟩

/-- One reader many times. -/
theorem Reads.count {reader : Reader α} {f : FixedWidth α} (hr : Reads reader f id) (n : Nat) :
    Reads (count reader n) (f.vector n) Vector.toList := by
  induction n with
  | zero =>
    intro input
    refine ⟨fun _ => ?_, fun h => ?_⟩
    · simp [Reader.count, FixedWidth.vector, FixedWidth.decodeMany]
      rfl
    · simp [FixedWidth.vector] at h
  | succ n ih =>
    -- one more value in front is a pair with the values behind it
    have step : Reads (Reader.count reader (n + 1)) (f.pair (f.vector n)) fun p => p.1 :: p.2.toList :=
      hr.bind fun a => ih.map (a :: ·)
    intro input
    obtain ⟨enough, short⟩ := step input
    have width : (f.vector (n + 1)).width = (f.pair (f.vector n)).width := by
      simp only [FixedWidth.vector, FixedWidth.pair, Nat.succ_mul]
      omega
    rw [width]
    refine ⟨fun h => ?_, short⟩
    rw [enough h]
    rfl

end Payphone.Reader
