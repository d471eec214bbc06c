import Mathlib.Data.List.Basic

/-!
# Watch channels

A channel that keeps its last value and counts how often it was set.  A receiver remembers which
count it has seen; `changed` returns when there is a newer one, or when every sender is gone.

* A clone of a receiver has seen what the original has seen, not what the channel has reached.

Principal result: `Receiver.ready_iff` — a receiver that has seen nothing yet is woken exactly when
the channel has been set or closed, however late it was cloned.
-/

set_option autoImplicit false

namespace Watch

variable {α : Type*}

structure Channel (α : Type*) where
  value : α
  version : Nat
  closed : Bool
  deriving DecidableEq, Repr

structure Receiver where
  seen : Nat
  deriving DecidableEq, Repr

/-- A new channel and its first receiver. -/
def channel (value : α) : Channel α × Receiver := (⟨value, 0, false⟩, ⟨0⟩)

namespace Channel

def send (c : Channel α) (value : α) : Channel α := { c with value := value, version := c.version + 1 }

/-- The last sender is dropped. -/
def close (c : Channel α) : Channel α := { c with closed := true }

/-- Nothing was sent, and there is still a sender. -/
def Quiet (c : Channel α) : Prop := c.version = 0 ∧ c.closed = false

theorem quiet_channel (value : α) : (channel value).1.Quiet := ⟨rfl, rfl⟩

theorem not_quiet_send (c : Channel α) (value : α) : ¬ (c.send value).Quiet :=
  fun h => Nat.succ_ne_zero _ h.1

theorem not_quiet_close (c : Channel α) : ¬ c.close.Quiet := fun h => Bool.noConfusion h.2

end Channel

namespace Receiver

/-- `changed` returns at once. -/
def ready (r : Receiver) (c : Channel α) : Bool := r.seen != c.version || c.closed

/-- The receiver after `changed`. -/
def mark (_ : Receiver) (c : Channel α) : Receiver := ⟨c.version⟩

/-- **A receiver that has seen nothing** is woken as soon as anything has happened. -/
theorem ready_iff {r : Receiver} (hseen : r.seen = 0) (c : Channel α) : r.ready c = true ↔
    ¬ c.Quiet := by
  rw [ready, hseen, Bool.or_eq_true, bne_iff_ne, Channel.Quiet, not_and_or, Bool.not_eq_false]
  exact or_congr_left ne_comm

end Receiver

end Watch
