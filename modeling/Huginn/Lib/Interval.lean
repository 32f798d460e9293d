import Mathlib.Tactic.Common

/-!
# An interval that skips missed ticks

The documented behaviour of a timer that ticks at once, and from then on at the multiples of its
period since its start. A tick that is observed late is observed once: the next one is at the next
multiple after that, and those in between are skipped.

Times are whole numbers of one unit since the start.
-/

namespace Huginn

/-- The period, and the time of the next tick. -/
structure Interval where
  period : ℕ
  deadline : ℕ
  deriving DecidableEq, Repr

namespace Interval

variable {i : Interval} {now : ℕ}

/-- A new interval, whose first tick is due at once. -/
def start (period : ℕ) : Interval := ⟨period, 0⟩

/-- The interval once its tick has been observed. -/
def tick (i : Interval) (now : ℕ) : Interval :=
  { i with deadline := now + i.period - (now - i.deadline) % i.period }

/-- The tick is due. -/
def Due (i : Interval) (now : ℕ) : Prop := i.deadline ≤ now

instance : Decidable (i.Due now) := inferInstanceAs (Decidable (_ ≤ _))

/-- Ticks are due at the multiples of the period, which is not zero. -/
structure Wf (i : Interval) : Prop where
  period_pos : 0 < i.period
  aligned : i.deadline % i.period = 0

theorem wf_start {period : ℕ} (h : 0 < period) : (start period).Wf := ⟨h, Nat.zero_mod _⟩

/-- The next tick is at a later multiple of the period. -/
theorem deadline_tick (hw : i.Wf) (hdue : i.Due now) :
    (i.tick now).deadline = i.deadline + i.period * ((now - i.deadline) / i.period + 1) := by
  have hdiv := Nat.div_add_mod (now - i.deadline) i.period
  have hlt : (now - i.deadline) % i.period < i.period := Nat.mod_lt _ hw.period_pos
  have hle : i.deadline ≤ now := hdue
  show now + i.period - (now - i.deadline) % i.period = _
  rw [Nat.mul_add, Nat.mul_one]
  omega

theorem Wf.tick (hw : i.Wf) (hdue : i.Due now) : (i.tick now).Wf := by
  refine ⟨hw.period_pos, ?_⟩
  show (i.tick now).deadline % i.period = 0
  rw [deadline_tick hw hdue, Nat.add_mul_mod_self_left]
  exact hw.aligned

/-- **No tick is missed for longer than a period**, and none comes at once after another. -/
theorem tick_bounds (hw : i.Wf) (now : ℕ) :
    now < (i.tick now).deadline ∧ (i.tick now).deadline ≤ now + i.period := by
  have hlt : (now - i.deadline) % i.period < i.period := Nat.mod_lt _ hw.period_pos
  show now < now + i.period - (now - i.deadline) % i.period ∧
    now + i.period - (now - i.deadline) % i.period ≤ now + i.period
  omega

/-- A tick that is observed within its own period is followed by the very next one. -/
theorem deadline_tick_of_lt (hdue : i.Due now) (h : now < i.deadline + i.period) :
    (i.tick now).deadline = i.deadline + i.period := by
  have hle : i.deadline ≤ now := hdue
  have hmod : (now - i.deadline) % i.period = now - i.deadline := Nat.mod_eq_of_lt (by omega)
  show now + i.period - (now - i.deadline) % i.period = _
  rw [hmod]
  omega

/-- What is observed at a tick is in an earlier period than what is observed at the next. -/
theorem div_lt_div (hw : i.Wf) {before : ℕ} (hbefore : before < i.deadline) (hdue : i.Due now) :
    before / i.period < now / i.period := by
  have hdeadline : i.deadline = i.period * (i.deadline / i.period) :=
    (Nat.mul_div_cancel' (Nat.dvd_of_mod_eq_zero hw.aligned)).symm
  have hlt : before / i.period < i.deadline / i.period := by
    rw [Nat.div_lt_iff_lt_mul hw.period_pos, Nat.mul_comm, ← hdeadline]
    exact hbefore
  exact Nat.lt_of_lt_of_le hlt (Nat.div_le_div_right hdue)

end Interval

end Huginn
