import Mathlib.Tactic.Common

/-!
# Futures

A future gives a value after some time, or never. Awaiting one and then another adds their times.
`All p f` says that what `f` gives, if it ever does, satisfies `p`, and `Within n f` that it does so
after at most `n` milliseconds, each with a rule for each way of making a future.
-/

namespace Huginn

/-- A computation that takes time, in milliseconds. -/
inductive Future (α : Type)
  | ready (millis : ℕ) (value : α)
  | never
  deriving DecidableEq, Repr

namespace Future

variable {α β : Type}

/-- The same future, started later. -/
def delay (millis : ℕ) : Future α → Future α
  | ready t a => ready (millis + t) a
  | never => never

def bind : Future α → (α → Future β) → Future β
  | ready t a, f => (f a).delay t
  | never, _ => never

instance : Monad Future where
  pure a := ready 0 a
  bind := bind

/-- Wait for a limited time only. What is ready at the limit still counts. -/
def timeout (limit : ℕ) : Future α → Future (Option α)
  | ready t a => if t ≤ limit then ready t (some a) else ready limit none
  | never => ready limit none

/-- What the future gives satisfies `p`. -/
def All (p : α → Prop) (f : Future α) : Prop := ∀ t a, f = ready t a → p a

theorem all_pure {p : α → Prop} {a : α} (h : p a) : All p (pure a : Future α) := by
  intro t b heq
  obtain ⟨-, rfl⟩ := Future.ready.inj heq
  exact h

theorem all_bind {p : α → Prop} {q : β → Prop} {x : Future α} {f : α → Future β} (hx : All p x)
    (hf : ∀ a, p a → All q (f a)) : All q (x >>= f) := by
  intro t b heq
  cases x with
  | never => cases heq
  | ready u a =>
    have hfa := hf a (hx u a rfl)
    change (f a).delay u = ready t b at heq
    cases hres : f a with
    | never =>
      rw [hres] at heq
      cases heq
    | ready v c =>
      rw [hres] at heq
      obtain ⟨-, rfl⟩ := Future.ready.inj heq
      exact hfa v c hres

/-- Awaiting a future about which nothing is known. -/
theorem all_bind_of_forall {q : β → Prop} {x : Future α} {f : α → Future β}
    (hf : ∀ a, All q (f a)) : All q (x >>= f) :=
  all_bind (p := fun _ => True) (fun _ _ _ => trivial) fun a _ => hf a

/-! ### How long it takes -/

/-- The future is over after at most `limit` milliseconds. -/
def Within (limit : ℕ) (f : Future α) : Prop := ∃ t a, f = ready t a ∧ t ≤ limit

theorem within_ready_iff {limit t : ℕ} {a : α} : Within limit (ready t a) ↔ t ≤ limit := by
  constructor
  · rintro ⟨u, b, heq, hle⟩
    obtain ⟨rfl, rfl⟩ := Future.ready.inj heq
    exact hle
  · intro hle
    exact ⟨t, a, rfl, hle⟩

theorem within_pure (limit : ℕ) (a : α) : Within limit (pure a : Future α) :=
  within_ready_iff.mpr (Nat.zero_le limit)

theorem bind_ready (t : ℕ) (a : α) (f : α → Future β) : (ready t a >>= f) = (f a).delay t := rfl

@[simp]
theorem delay_pure (t : ℕ) (a : α) : (pure a : Future α).delay t = ready t a := rfl

@[simp]
theorem delay_ready (t u : ℕ) (a : α) : (ready u a).delay t = ready (t + u) a := rfl

/-- Time passes first. -/
theorem within_delay_iff {limit t : ℕ} {f : Future α} (h : t ≤ limit) :
    Within limit (f.delay t) ↔ Within (limit - t) f := by
  cases f with
  | never =>
    constructor
    · rintro ⟨_, _, heq, _⟩
      cases heq
    · rintro ⟨_, _, heq, _⟩
      cases heq
  | ready u a =>
    rw [delay_ready, within_ready_iff, within_ready_iff]
    omega

/-- Awaiting one future after the other takes the sum of their times. -/
theorem within_bind {m n : ℕ} {x : Future α} {f : α → Future β} (hx : Within m x)
    (hf : ∀ a, Within n (f a)) : Within (m + n) (x >>= f) := by
  obtain ⟨t, a, rfl, ht⟩ := hx
  obtain ⟨u, b, hfa, hu⟩ := hf a
  rw [bind_ready, hfa, delay_ready, within_ready_iff]
  omega

/-- What is computed from the value takes no time. -/
theorem within_bind_pure {m : ℕ} {x : Future α} {f : α → Future β} (hx : Within m x)
    (hf : ∀ a, ∃ b, f a = pure b) : Within m (x >>= f) := by
  refine within_bind (n := 0) hx fun a => ?_
  obtain ⟨b, hb⟩ := hf a
  rw [hb]
  exact within_pure 0 b

/-- A timeout ends in time, whatever the future does. -/
theorem within_timeout (limit : ℕ) (f : Future α) : Within limit (f.timeout limit) := by
  cases f with
  | never => exact within_ready_iff.mpr (Nat.le_refl limit)
  | ready t a =>
    show Within limit (if t ≤ limit then ready t (some a) else ready limit none)
    split_ifs with h
    · exact within_ready_iff.mpr h
    · exact within_ready_iff.mpr (Nat.le_refl limit)

end Future

/-- A future that may fail, with the text of the error. -/
abbrev Attempt := ExceptT String Future

end Huginn
