import Payphone.Proofs.Disk

/-!
What computations log.

1. One computation after another logs what the first does and, if the first succeeds, what the second does
   (`logs_bind_iff`).
2. Three properties are kept by this: to log records of some levels only (`LogsOnly`), to warn of every refusal for a
   wrong length (`WarnsOfSize`), and to report every success (`ReportsSuccess`). A warning or a report is there as soon
   as one part has logged it.
3. Computations on files log as attempts do (`attempt_bind`), and looking at files logs nothing (`attempt_examine`).
-/
namespace Payphone

open Log (Level)

/-! Records of a level. -/

namespace Attempt

variable {α β : Type} {level : Level} {x : Attempt α} {f : α → Attempt β}

/-- Some record of the level is logged. -/
def Logs (level : Level) (x : Attempt α) : Prop := ∃ r ∈ x.log, r.level = level

instance : Decidable (x.Logs level) := inferInstanceAs (Decidable (∃ r ∈ x.log, r.level = level))

theorem logs_note (level : Level) (message : String) : (note level message).Logs level :=
  ⟨_, List.mem_singleton_self _, rfl⟩

theorem logs_bind_iff : (x >>= f).Logs level ↔ x.Logs level ∨ ∃ a, x.result = .ok a ∧ (f a).Logs level := by
  cases h : x.result with
  | ok a =>
    rw [Logs, log_bind_of_ok h]
    simp [Logs, or_and_right, exists_or]
  | error e =>
    rw [Logs, log_bind_of_error h]
    simp [Logs]

theorem Logs.bind_left (h : x.Logs level) (f : α → Attempt β) : (x >>= f).Logs level := logs_bind_iff.2 (.inl h)

theorem Logs.bind_right {a : α} (ha : x.result = .ok a) (h : (f a).Logs level) : (x >>= f).Logs level :=
  logs_bind_iff.2 (.inr ⟨a, ha, h⟩)

/-- No records are logged but those of the levels. -/
def LogsOnly (levels : List Level) (x : Attempt α) : Prop := ∀ r ∈ x.log, r.level ∈ levels

namespace LogsOnly

variable {levels : List Level}

theorem of_nil (h : x.log = []) : x.LogsOnly levels := by
  intro r hr
  rw [h] at hr
  cases hr

theorem pure (a : α) : (Pure.pure a : Attempt α).LogsOnly levels := of_nil rfl

theorem throw (e : TableError) : (MonadExcept.throw e : Attempt α).LogsOnly levels := of_nil rfl

theorem lift (y : Except TableError α) : (liftM y : Attempt α).LogsOnly levels := of_nil rfl

theorem note (h : level ∈ levels) (message : String) : (Attempt.note level message).LogsOnly levels := by
  intro r hr
  rw [List.mem_singleton.1 hr]
  exact h

theorem bind (hx : x.LogsOnly levels) (hf : ∀ a, (f a).LogsOnly levels) : (x >>= f).LogsOnly levels := by
  cases h : x.result with
  | ok a =>
    rw [LogsOnly, log_bind_of_ok h]
    exact List.forall_mem_append.2 ⟨hx, hf a⟩
  | error e =>
    rw [LogsOnly, log_bind_of_error h]
    exact hx

theorem ite {c : Prop} [Decidable c] {x y : Attempt α} (hx : x.LogsOnly levels) (hy : y.LogsOnly levels) :
    (if c then x else y).LogsOnly levels := by
  by_cases h : c
  · rw [if_pos h]
    exact hx
  · rw [if_neg h]
    exact hy

theorem mono {others : List Level} (h : x.LogsOnly levels) (sub : ∀ l ∈ levels, l ∈ others) : x.LogsOnly others :=
  fun r hr => sub r.level (h r hr)

theorem not_logs (h : x.LogsOnly levels) (other : level ∉ levels) : ¬ x.Logs level := by
  rintro ⟨r, hr, rfl⟩
  exact other (h r hr)

end LogsOnly

end Attempt

/-! Wrong lengths. -/

/-- The answer is no refusal for a wrong length. -/
def NoSizeMismatch {α : Type} (answer : Except TableError α) : Prop :=
  ∀ table expected actual, answer ≠ .error (.sizeMismatch table expected actual)

namespace NoSizeMismatch

variable {α β : Type} {x : Except TableError α}

theorem ok (a : α) : NoSizeMismatch (.ok a : Except TableError α) := by
  intro table expected actual h
  cases h

theorem bind {f : α → Except TableError β} (hx : NoSizeMismatch x) (hf : ∀ a, NoSizeMismatch (f a)) :
    NoSizeMismatch (x.bind f) := by
  cases x with
  | ok a => exact hf a
  | error e =>
    intro table expected actual h
    exact hx table expected actual (congrArg Except.error (Except.error.inj h))

theorem mapError {ε : Type} {y : Except ε α} {f : ε → TableError}
    (hf : ∀ e table expected actual, f e ≠ .sizeMismatch table expected actual) : NoSizeMismatch (y.mapError f) := by
  cases y with
  | ok a => exact .ok a
  | error e =>
    intro table expected actual h
    exact hf e table expected actual (Except.error.inj h)

end NoSizeMismatch

namespace Attempt

variable {α β : Type} {x : Attempt α} {f : α → Attempt β}

/-- What is refused for a wrong length is warned of. -/
def WarnsOfSize (x : Attempt α) : Prop :=
  ∀ table expected actual, x.result = .error (.sizeMismatch table expected actual) → x.Logs .warn

namespace WarnsOfSize

theorem of_answer (h : NoSizeMismatch x.result) : x.WarnsOfSize :=
  fun table expected actual refused => absurd refused (h table expected actual)

theorem of_logs (h : x.Logs .warn) : x.WarnsOfSize := fun _ _ _ _ => h

theorem pure (a : α) : (Pure.pure a : Attempt α).WarnsOfSize := of_answer (.ok a)

theorem note (level : Level) (message : String) : (Attempt.note level message).WarnsOfSize := of_answer (.ok ())

theorem throw {e : TableError} (h : NoSizeMismatch (.error e : Except TableError α)) :
    (MonadExcept.throw e : Attempt α).WarnsOfSize := of_answer h

theorem lift {y : Except TableError α} (h : NoSizeMismatch y) : (liftM y : Attempt α).WarnsOfSize := of_answer h

theorem bind (hx : x.WarnsOfSize) (hf : ∀ a, x.result = .ok a → (f a).WarnsOfSize) :
    (x >>= f).WarnsOfSize := by
  intro table expected actual h
  rw [result_bind] at h
  cases ha : x.result with
  | ok a =>
    rw [ha] at h
    exact .bind_right ha (hf a ha table expected actual h)
  | error e =>
    rw [ha] at h
    refine .bind_left (hx table expected actual ?_) f
    rw [ha, ← Except.error.inj h]

theorem ite {c : Prop} [Decidable c] {x y : Attempt α} (hx : c → x.WarnsOfSize) (hy : ¬ c → y.WarnsOfSize) :
    (if c then x else y).WarnsOfSize := by
  by_cases h : c
  · rw [if_pos h]
    exact hx h
  · rw [if_neg h]
    exact hy h

end WarnsOfSize

/-- What succeeds is reported. -/
def ReportsSuccess (x : Attempt α) : Prop := ∀ a, x.result = .ok a → x.Logs .info

namespace ReportsSuccess

theorem of_logs (h : x.Logs .info) : x.ReportsSuccess := fun _ _ => h

theorem bind_left (hx : x.ReportsSuccess) : (x >>= f).ReportsSuccess := by
  intro b hb
  rw [result_bind] at hb
  obtain ⟨a, ha, -⟩ := bind_eq_ok.1 hb
  exact (hx a ha).bind_left f

theorem bind_right (hf : ∀ a, x.result = .ok a → (f a).ReportsSuccess) : (x >>= f).ReportsSuccess := by
  intro b hb
  rw [result_bind] at hb
  obtain ⟨a, ha, hb⟩ := bind_eq_ok.1 hb
  exact .bind_right ha (hf a ha b hb)

end ReportsSuccess

end Attempt

/-! Files. -/

namespace Disk

variable {α β : Type} {fs : FileSystem}

/-- What the computation answers and logs. -/
def attempt (x : Disk α) (fs : FileSystem) : Attempt α := (x fs).1

theorem result_attempt (x : Disk α) (fs : FileSystem) : (x.attempt fs).result = x.result fs := rfl

theorem attempt_bind (x : Disk α) (f : α → Disk β) (fs : FileSystem) :
    (x >>= f).attempt fs = x.attempt fs >>= fun a => (f a).attempt (x.files fs) := by
  change (Disk.bind x f fs).1 = Attempt.bind (x fs).1 fun a => (f a (x fs).2).1
  unfold Disk.bind Attempt.bind
  cases h : (x fs).1.result <;> simp [h]

theorem attempt_ite {c : Prop} [Decidable c] (x y : Disk α) (fs : FileSystem) :
    (if c then x else y).attempt fs = if c then x.attempt fs else y.attempt fs :=
  apply_ite (fun z : Disk α => z.attempt fs) c x y

/-- Looking at files logs nothing. -/
theorem attempt_examine (look : FileSystem → Except FileError α) (fs : FileSystem) :
    (examine look).attempt fs = liftM ((look fs).mapError ofFileError) := by
  unfold attempt examine
  cases look fs <;> rfl

theorem warns_examine (look : FileSystem → Except FileError α) : ((examine look).attempt fs).WarnsOfSize := by
  rw [attempt_examine]
  exact .lift (.mapError nofun)

theorem levels_examine {levels : List Level} (look : FileSystem → Except FileError α) :
    ((examine look).attempt fs).LogsOnly levels := by
  rw [attempt_examine]
  exact .lift _

theorem warns_bind {x : Disk α} {f : α → Disk β} (hx : (x.attempt fs).WarnsOfSize)
    (hf : ∀ a, x.result fs = .ok a → ((f a).attempt (x.files fs)).WarnsOfSize) :
    ((x >>= f).attempt fs).WarnsOfSize := by
  rw [attempt_bind]
  exact .bind hx hf

theorem logs_bind_left {level : Level} {x : Disk α} (h : (x.attempt fs).Logs level) (f : α → Disk β) :
    ((x >>= f).attempt fs).Logs level := by
  rw [attempt_bind]
  exact h.bind_left _

theorem logs_bind_right {level : Level} {x : Disk α} {f : α → Disk β} {a : α} (ha : x.result fs = .ok a)
    (h : ((f a).attempt (x.files fs)).Logs level) : ((x >>= f).attempt fs).Logs level := by
  rw [attempt_bind]
  exact .bind_right ha h

theorem reports_bind {x : Disk α} {f : α → Disk β}
    (hf : ∀ a, x.result fs = .ok a → ((f a).attempt (x.files fs)).ReportsSuccess) :
    ((x >>= f).attempt fs).ReportsSuccess := by
  rw [attempt_bind]
  exact .bind_right hf

theorem reports_bind_left {x : Disk α} {f : α → Disk β} (hx : (x.attempt fs).ReportsSuccess) :
    ((x >>= f).attempt fs).ReportsSuccess := by
  rw [attempt_bind]
  exact .bind_left hx

theorem levels_bind {x : Disk α} {f : α → Disk β} {levels : List Level} (hx : (x.attempt fs).LogsOnly levels)
    (hf : ∀ a, ((f a).attempt (x.files fs)).LogsOnly levels) : ((x >>= f).attempt fs).LogsOnly levels := by
  rw [attempt_bind]
  exact .bind hx hf

end Disk

end Payphone
