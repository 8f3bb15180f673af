import Payphone.Error
import Payphone.Log

/-!
Computations that may fail with a `TableError` and that log what they do.

An `Attempt` is its result together with the records logged on the way, in order. A failure ends it: what follows
is not run and logs nothing, and what was logged before stays.
-/
namespace Payphone

open Log (Level Record)

structure Attempt (α : Type) where
  result : Except TableError α
  log : List Record

namespace Attempt

variable {α β : Type}

protected def pure (a : α) : Attempt α := ⟨.ok a, []⟩

protected def bind (x : Attempt α) (f : α → Attempt β) : Attempt β :=
  match x.result with
  | .ok a => ⟨(f a).result, x.log ++ (f a).log⟩
  | .error e => ⟨.error e, x.log⟩

instance : Monad Attempt where
  pure := Attempt.pure
  bind := Attempt.bind

/-- Fails without logging. -/
protected def throw (e : TableError) : Attempt α := ⟨.error e, []⟩

/-- On a failure goes on with `handler`, keeping what was logged. -/
protected def tryCatch (x : Attempt α) (handler : TableError → Attempt α) : Attempt α :=
  match x.result with
  | .ok _ => x
  | .error e => ⟨(handler e).result, x.log ++ (handler e).log⟩

instance : MonadExceptOf TableError Attempt where
  throw := Attempt.throw
  tryCatch := Attempt.tryCatch

/-- A computation that logs nothing. -/
def ofExcept (x : Except TableError α) : Attempt α := ⟨x, []⟩

instance : MonadLift (Except TableError) Attempt where
  monadLift := ofExcept

/-- Logs one record. -/
def note (level : Level) (message : String) : Attempt Unit := ⟨.ok (), [⟨level, message⟩]⟩

/-- Logs the records in order. -/
def notes (records : List Record) : Attempt Unit := ⟨.ok (), records⟩

/-! The two parts of each operation. -/

@[simp] theorem result_pure (a : α) : (pure a : Attempt α).result = .ok a := rfl

@[simp] theorem log_pure (a : α) : (pure a : Attempt α).log = [] := rfl

@[simp] theorem result_throw (e : TableError) : (throw e : Attempt α).result = .error e := rfl

@[simp] theorem log_throw (e : TableError) : (throw e : Attempt α).log = [] := rfl

@[simp] theorem result_note (level : Level) (message : String) : (note level message).result = .ok () := rfl

@[simp] theorem log_note (level : Level) (message : String) : (note level message).log = [⟨level, message⟩] := rfl

@[simp] theorem result_notes (records : List Record) : (notes records).result = .ok () := rfl

@[simp] theorem log_notes (records : List Record) : (notes records).log = records := rfl

@[simp] theorem result_lift (x : Except TableError α) : (liftM x : Attempt α).result = x := rfl

@[simp] theorem log_lift (x : Except TableError α) : (liftM x : Attempt α).log = [] := rfl

@[simp] theorem result_bind (x : Attempt α) (f : α → Attempt β) :
    (x >>= f).result = x.result.bind fun a => (f a).result := by
  change (Attempt.bind x f).result = _
  unfold Attempt.bind
  cases x.result <;> rfl

theorem log_bind_of_ok {x : Attempt α} {a : α} (h : x.result = .ok a) (f : α → Attempt β) :
    (x >>= f).log = x.log ++ (f a).log := by
  change (Attempt.bind x f).log = _
  simp [Attempt.bind, h]

theorem log_bind_of_error {x : Attempt α} {e : TableError} (h : x.result = .error e) (f : α → Attempt β) :
    (x >>= f).log = x.log := by
  change (Attempt.bind x f).log = _
  simp [Attempt.bind, h]

end Attempt

/-! Answers that succeed. -/

section

variable {ε ε' α β : Type} {x : Except ε α}

theorem bind_eq_ok {f : α → Except ε β} {b : β} : x.bind f = .ok b ↔ ∃ a, x = .ok a ∧ f a = .ok b := by
  cases x <;> simp [Except.bind]

theorem map_eq_ok {f : α → β} {b : β} : x.map f = .ok b ↔ ∃ a, x = .ok a ∧ f a = b := by
  cases x <;> simp [Except.map]

@[simp] theorem mapError_ok (f : ε → ε') (a : α) : (Except.ok a).mapError f = .ok a := rfl

@[simp] theorem mapError_error (f : ε → ε') (e : ε) : (Except.error e : Except ε α).mapError f = .error (f e) := rfl

theorem mapError_eq_ok {f : ε → ε'} {a : α} : x.mapError f = .ok a ↔ x = .ok a := by
  cases x <;> simp

theorem toOption_eq_some {a : α} : x.toOption = some a ↔ x = .ok a := by
  cases x <;> simp [Except.toOption]

end

/-- A step that looks at the state first goes on from the state as it is. -/
theorem run_get_bind {σ ε α : Type} (next : σ → ExceptT ε (StateM σ) α) (s : σ) :
    (get >>= next).run.run s = (next s).run.run s := rfl

/-- Logs a text at level `info`. -/
def logInfo (text : String) : Attempt Unit := Attempt.note .info text

end Payphone
