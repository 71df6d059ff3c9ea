import Mathlib.Data.List.Basic

/-!
# Deadline timers

A timer has an expiry time and handlers that wait for it. A new expiry time, like `cancel`, aborts
all waits. The handlers of aborted waits do nothing, so they are left out. A timer whose expiry time
has never been set counts as expired.
-/

namespace Timers

variable {η : Type}

/-- A timer with handlers of type `η`. -/
structure Timer (η : Type) where
  /-- The expiry time, if it has been set. -/
  expiry : Option ℕ := none
  /-- The handlers that wait, in order. -/
  waiters : List η := []

namespace Timer

/-- Abort all waits; the expiry time stays. -/
def cancel (t : Timer η) : Timer η := { t with waiters := [] }

/-- Set the expiry time, which aborts all waits. -/
def expiresAt (t : Timer η) (time : ℕ) : Timer η := { t.cancel with expiry := some time }

/-- Wait for the timer. -/
def asyncWait (t : Timer η) (h : η) : Timer η := { t with waiters := t.waiters ++ [h] }

/-- The timer has expired at the time `now`. -/
def Expired (t : Timer η) (now : ℕ) : Prop := ∀ time ∈ t.expiry, time ≤ now

instance (t : Timer η) (now : ℕ) : Decidable (t.Expired now) :=
  inferInstanceAs (Decidable (∀ time ∈ t.expiry, time ≤ now))

theorem mem_waiters_asyncWait {t : Timer η} {h h' : η} :
    h ∈ (t.asyncWait h').waiters ↔ h ∈ t.waiters ∨ h = h' := by
  simp [asyncWait]

@[simp]
theorem waiters_cancel (t : Timer η) : t.cancel.waiters = [] := rfl

@[simp]
theorem waiters_expiresAt (t : Timer η) (time : ℕ) : (t.expiresAt time).waiters = [] := rfl

end Timer

end Timers
