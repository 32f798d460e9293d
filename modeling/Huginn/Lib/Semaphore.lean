import Mathlib.Data.List.Perm.Basic
import Mathlib.Tactic.Common

/-!
# A counting semaphore

The documented behaviour of a counting semaphore whose permits are values: a permit is taken out by
`acquire`, which has to wait while none is available, it is owned by whoever took it, it can be
moved to another owner, and dropping it gives it back. The owners of the permits that are out are
kept with the semaphore, so that it can be said who they are.

A permit that is dropped by an owner of it neither appears nor disappears (`permits_release`), and
the list of the owners changes in that one place (`held_release`, `held_transfer`).
-/

namespace Huginn

/-- A semaphore: the permits that are available, and the owners of the others. -/
structure Semaphore (ι : Type*) where
  available : ℕ
  held : List ι
  deriving DecidableEq, Repr

namespace Semaphore

variable {ι : Type*}

def new (permits : ℕ) : Semaphore ι := ⟨permits, []⟩

/-- Take a permit out, or `none` while it has to be waited for. -/
def acquire (s : Semaphore ι) (i : ι) : Option (Semaphore ι) :=
  match s.available with
  | 0 => none
  | n + 1 => some ⟨n, i :: s.held⟩

variable [DecidableEq ι]

/-- Drop a permit. -/
def release (s : Semaphore ι) (i : ι) : Semaphore ι := ⟨s.available + 1, s.held.erase i⟩

/-- Move a permit to another owner. -/
def transfer (s : Semaphore ι) (i j : ι) : Semaphore ι := { s with held := j :: s.held.erase i }

omit [DecidableEq ι] in
/-- How many permits there are. -/
def permits (s : Semaphore ι) : ℕ := s.available + s.held.length

variable {s t : Semaphore ι} {i j : ι} {owners : List ι}

omit [DecidableEq ι] in
@[simp]
theorem permits_new (n : ℕ) : (new n : Semaphore ι).permits = n := rfl

omit [DecidableEq ι] in
theorem acquire_eq_some (h : s.acquire i = some t) :
    t.held = i :: s.held ∧ t.permits = s.permits := by
  rw [acquire] at h
  cases hn : s.available with
  | zero =>
    rw [hn] at h
    cases h
  | succ n =>
    rw [hn] at h
    obtain rfl := Option.some.inj h
    refine ⟨rfl, ?_⟩
    show n + (s.held.length + 1) = s.available + s.held.length
    omega

/-- Dropping a permit makes it available. -/
theorem permits_release (h : i ∈ s.held) : (s.release i).permits = s.permits := by
  have hpos : 0 < s.held.length := List.length_pos_of_mem h
  show s.available + 1 + (s.held.erase i).length = s.available + s.held.length
  rw [List.length_erase_of_mem h]
  omega

theorem permits_transfer (h : i ∈ s.held) : (s.transfer i j).permits = s.permits := by
  have hpos : 0 < s.held.length := List.length_pos_of_mem h
  show s.available + ((s.held.erase i).length + 1) = s.available + s.held.length
  rw [List.length_erase_of_mem h]
  omega

/-- An owner that drops its permit is one no more. -/
theorem held_release (h : s.held.Perm (i :: owners)) : (s.release i).held.Perm owners := by
  have herase := h.erase i
  rwa [List.erase_cons_head] at herase

theorem held_transfer (h : s.held.Perm (i :: owners)) :
    (s.transfer i j).held.Perm (j :: owners) :=
  (held_release h).cons j

end Semaphore

end Huginn
