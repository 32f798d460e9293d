import Mathlib.Data.List.Basic
import Mathlib.Logic.Function.Basic
import Mathlib.Tactic.Common

/-!
# The last write wins

A log of writes, each of which carries the key that it is to: `lastTo` is the last write to a key,
and `overlay` what a reader finds who applies the log on top of what was there before. Logs are
applied one after another (`overlay_append`), and a write that comes again later may have been part
of what was there before or not (`overlay_eq_lastTo`).
-/

namespace Huginn

variable {α κ : Type*} [DecidableEq κ] {key : α → κ}

/-- The last write to a key. -/
def lastTo (key : α → κ) (log : List α) (k : κ) : Option α :=
  (log.filter fun a => key a = k).getLast?

/-- A log of writes, applied to what was there before. -/
def overlay (key : α → κ) (base : κ → Option α) (log : List α) (k : κ) : Option α :=
  (lastTo key log k).or (base k)

theorem lastTo_append (l m : List α) (k : κ) :
    lastTo key (l ++ m) k = (lastTo key m k).or (lastTo key l k) := by
  rw [lastTo, List.filter_append, List.getLast?_append]
  rfl

theorem lastTo_singleton (a : α) (k : κ) :
    lastTo key [a] k = if key a = k then some a else none := by
  by_cases h : key a = k
  · simp [lastTo, h]
  · simp [lastTo, h]

/-- A key that nothing is written to. -/
theorem lastTo_eq_none_iff {log : List α} {k : κ} :
    lastTo key log k = none ↔ ∀ a ∈ log, key a ≠ k := by
  rw [lastTo, List.getLast?_eq_none_iff, List.filter_eq_nil_iff]
  simp

theorem key_of_lastTo {log : List α} {k : κ} {a : α} (h : lastTo key log k = some a) :
    a ∈ log ∧ key a = k := by
  have hmem := List.mem_of_getLast? h
  rw [List.mem_filter] at hmem
  exact ⟨hmem.1, of_decide_eq_true hmem.2⟩

@[simp]
theorem overlay_nil (base : κ → Option α) : overlay key base [] = base := by
  funext k
  exact Option.none_or

/-- A log on top of nothing. -/
theorem overlay_none (log : List α) : overlay key (fun _ => none) log = lastTo key log := by
  funext k
  exact Option.or_none

theorem overlay_append (base : κ → Option α) (l m : List α) :
    overlay key base (l ++ m) = overlay key (overlay key base l) m := by
  funext k
  rw [overlay, lastTo_append, Option.or_assoc]
  rfl

/-- One more write. -/
theorem overlay_concat (base : κ → Option α) (log : List α) (a : α) :
    overlay key base (log ++ [a]) = Function.update (overlay key base log) (key a) (some a) := by
  funext k
  rw [overlay_append, overlay, lastTo_singleton]
  by_cases h : key a = k
  · rw [if_pos h, ← h, Function.update_self, Option.some_or]
  · rw [if_neg h, Function.update_of_ne (Ne.symm h), Option.none_or]

theorem lastTo_concat (log : List α) (a : α) :
    lastTo key (log ++ [a]) = Function.update (lastTo key log) (key a) (some a) := by
  rw [← overlay_none, overlay_concat, overlay_none]

/-- Applying a log to what is right wherever the log does not write gives what is right. -/
theorem overlay_eq_lastTo {base : κ → Option α} {l m : List α} {k : κ}
    (h : lastTo key m k = none → base k = lastTo key l k) :
    overlay key base m k = lastTo key (l ++ m) k := by
  rw [overlay, lastTo_append]
  cases hm : lastTo key m k with
  | some a => rfl
  | none => rw [Option.none_or, Option.none_or, h hm]

end Huginn
