import Mathlib.Tactic.Common

/-!
# A wakeup cell with one waiting task

The documented behaviour of an asynchronous `Notify` cell that a single task waits on.
`notifyOne` wakes the registered waiter, or stores one permit when there is none; permits do not
add up. `notifyWaiters` stores no permit, but it completes every `Notified` future created before
the call, whether it has been polled yet or not: a future remembers how many `notifyWaiters` calls
there had been when it was created (`Notified.calls`), and its first poll compares.

A future that has not been polled is not registered, so between its creation and its first poll a
`notifyOne` goes into the permit, which that poll then takes.
-/

namespace Huginn

/-- Where the one task that may wait stands: not registered, registered and asleep, or woken and
not yet resumed. -/
inductive Waiter
  | absent
  | registered
  | woken
  deriving DecidableEq, Repr

/-- The shared cell: the single stored permit, the slot of the waiting task, and how many times
`notifyWaiters` has been called. -/
structure Notify where
  permit : Bool
  waiter : Waiter
  calls : ℕ
  deriving DecidableEq, Repr

/-- A future created by `notified()` and not yet polled: the number of `notifyWaiters` calls at its
creation. -/
structure Notified where
  calls : ℕ
  deriving DecidableEq, Repr

namespace Notify

/-- `Notify::new()`. -/
def new : Notify := ⟨false, .absent, 0⟩

/-- Create the future, without polling it. -/
def notified (n : Notify) : Notified := ⟨n.calls⟩

/-- Wake the registered waiter, or store the permit. -/
def notifyOne (n : Notify) : Notify :=
  match n.waiter with
  | .registered => { n with waiter := .woken }
  | .absent | .woken => { n with permit := true }

/-- Wake the registered waiter and complete every future already created. -/
def notifyWaiters (n : Notify) : Notify :=
  { n with
    calls := n.calls + 1
    waiter := match n.waiter with
      | .registered => .woken
      | .absent => .absent
      | .woken => .woken }

/-- The first poll of a future: it completes by taking the permit, or because `notifyWaiters` was
called since its creation; otherwise it registers the task. The flag says whether it completed. -/
def poll (n : Notify) (f : Notified) : Notify × Bool :=
  if n.permit then ({ n with permit := false }, true)
  -- completed by a `notifyWaiters` from before this poll, which stored no permit
  else if f.calls ≠ n.calls then (n, true)
  else ({ n with waiter := .registered }, false)

/-- Resume the suspended task; possible once it has been woken. -/
def resume (n : Notify) : Option Notify :=
  if n.waiter = .woken then some { n with waiter := .absent } else none

variable {n : Notify} {f : Notified}

/-- Whoever was registered is woken by `notifyOne`. -/
theorem notifyOne_wakes (h : n.waiter = .registered) : n.notifyOne.waiter = .woken := by
  simp [notifyOne, h]

/-- With nobody registered, `notifyOne` leaves the permit behind. -/
theorem notifyOne_stores (h : n.waiter = .absent) : n.notifyOne.permit = true := by
  simp [notifyOne, h]

@[simp]
theorem notifyOne_calls : n.notifyOne.calls = n.calls := by
  unfold notifyOne
  split <;> rfl

/-- `notifyOne` never leaves a task registered and asleep. -/
theorem notifyOne_ne_registered : n.notifyOne.waiter ≠ .registered := by
  unfold notifyOne
  split <;> simp_all

theorem notifyOne_absent_iff : n.notifyOne.waiter = .absent ↔ n.waiter = .absent := by
  unfold notifyOne
  split <;> simp_all

@[simp]
theorem notifyWaiters_permit : n.notifyWaiters.permit = n.permit := rfl

@[simp]
theorem notifyWaiters_calls : n.notifyWaiters.calls = n.calls + 1 := rfl

/-- `notifyWaiters` never leaves a task registered and asleep. -/
theorem notifyWaiters_ne_registered : n.notifyWaiters.waiter ≠ .registered := by
  unfold notifyWaiters
  cases n.waiter <;> simp

theorem notifyWaiters_absent_iff : n.notifyWaiters.waiter = .absent ↔ n.waiter = .absent := by
  unfold notifyWaiters
  cases n.waiter <;> simp

/-- A poll suspends the task only when there was no permit and no `notifyWaiters` call since the
future was created. -/
theorem poll_suspends (h : (n.poll f).2 = false) :
    n.permit = false ∧ f.calls = n.calls ∧ (n.poll f).1 = { n with waiter := .registered } := by
  unfold poll at h ⊢
  split_ifs at h ⊢ with hp hc
  exact ⟨by simpa using hp, by simpa using hc, rfl⟩

/-- A poll that completes leaves the waiter slot alone. -/
theorem poll_completes (h : (n.poll f).2 = true) : (n.poll f).1.waiter = n.waiter := by
  unfold poll at h ⊢
  split_ifs at h ⊢ <;> rfl

end Notify

end Huginn
