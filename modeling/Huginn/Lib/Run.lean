import Mathlib.Data.List.Basic
import Mathlib.Tactic.Common

/-!
# Runs of a transition system

A system is a partial step function `step : σ → α → Option σ`: `step s a = none` says that the
action `a` is not possible in the state `s`. `Run step ok s as t` is a finite run from `s` to `t`
along the actions `as`, every step of which was taken in a state that met `ok`. The unrestricted
runs are `FreeRun step`; a claim of the form "in every run whose steps all meet a condition" is one
about `Run step ok`.

The rules: an invariant that every step keeps holds at the end of every run (`Run.invariant`), a
run either meets `ok` throughout or has a first step that does not (`FreeRun.run_or_violation`), and
a map of states that turns steps into steps, or into nothing, turns runs into runs
(`Run.simulate`). What can be seen of the steps of a run is its trace (`trace`), which an invariant
can speak of, too (`Run.trace_invariant`).
-/

namespace Huginn

variable {σ τ α β : Type*}

/-- A finite run of `step` from `s`, along a list of actions, each taken where `ok` held. -/
inductive Run (step : σ → α → Option σ) (ok : σ → α → Prop) (s : σ) : List α → σ → Prop
  | nil : Run step ok s [] s
  | snoc {as : List α} {t : σ} {a : α} {u : σ} :
      Run step ok s as t → ok t a → step t a = some u → Run step ok s (as ++ [a]) u

/-- A run with no condition on its steps. -/
abbrev FreeRun (step : σ → α → Option σ) : σ → List α → σ → Prop :=
  Run step fun _ _ => True

/-- The state `t` can be reached from `s`. -/
def Reachable (step : σ → α → Option σ) (s t : σ) : Prop :=
  ∃ as, FreeRun step s as t

namespace Run

variable {step : σ → α → Option σ} {ok : σ → α → Prop} {s t u : σ} {as bs : List α} {a : α}

/-- **The invariant rule.** What holds at the start and is kept by every step holds at the end. -/
theorem invariant {I : σ → Prop} (h : Run step ok s as t) (hs : I s)
    (hstep : ∀ t a u, I t → ok t a → step t a = some u → I u) : I t := by
  induction h with
  | nil => exact hs
  | snoc _ hok hst ih => exact hstep _ _ _ ih hok hst

/-- The invariant rule, for what is kept in the states that meet another invariant. -/
theorem invariant_under {J I : σ → Prop} (h : Run step ok s as t) (hj : J s)
    (hjstep : ∀ t a u, J t → ok t a → step t a = some u → J u) (hs : I s)
    (hstep : ∀ t a u, J t → I t → ok t a → step t a = some u → I u) : I t := by
  have hboth : J t ∧ I t := h.invariant (I := fun t => J t ∧ I t) ⟨hj, hs⟩
    fun t a u ht hok hst => ⟨hjstep t a u ht.1 hok hst, hstep t a u ht.1 ht.2 hok hst⟩
  exact hboth.2

/-- A weaker condition on the steps. -/
theorem mono {ok' : σ → α → Prop} (h : Run step ok s as t) (himp : ∀ s a, ok s a → ok' s a) :
    Run step ok' s as t := by
  induction h with
  | nil => exact .nil
  | snoc _ hok hst ih => exact .snoc ih (himp _ _ hok) hst

/-- A run of one step. -/
theorem single (hok : ok s a) (hst : step s a = some t) : Run step ok s [a] t :=
  .snoc .nil hok hst

/-- Runs compose. -/
theorem trans (h : Run step ok s as t) (h' : Run step ok t bs u) : Run step ok s (as ++ bs) u := by
  induction h' with
  | nil => rwa [List.append_nil]
  | snoc _ hok hst ih => rw [← List.append_assoc]; exact .snoc ih hok hst

/-- **The simulation rule.** If, in the states that meet an invariant, `f` turns every step into a
step of the other system or into no step at all, then it turns every run into a run. -/
theorem simulate {step' : τ → β → Option τ} {okB : τ → β → Prop} {I : σ → Prop} (f : σ → τ)
    (h : Run step ok s as t) (hs : I s) (hI : ∀ t a u, I t → ok t a → step t a = some u → I u)
    (hsim : ∀ t a u, I t → ok t a → step t a = some u →
      f u = f t ∨ ∃ b, okB (f t) b ∧ step' (f t) b = some (f u)) :
    ∃ bs, Run step' okB (f s) bs (f t) := by
  induction h with
  | nil => exact ⟨[], .nil⟩
  | @snoc as t a u hrun hok hst ih =>
    obtain ⟨bs, hbs⟩ := ih
    have ht : I t := hrun.invariant hs hI
    rcases hsim t a u ht hok hst with heq | ⟨b, hokb, hb⟩
    · exact ⟨bs, heq ▸ hbs⟩
    · exact ⟨bs ++ [b], .snoc hbs hokb hb⟩

end Run

namespace FreeRun

variable {step : σ → α → Option σ} {ok : σ → α → Prop} {s t : σ} {as : List α}

/-- A run meets `ok` at every step, or there is a first step that does not: `ok` held up to the
state `t₁`, the action `a` was taken there without it, and the run went on from `u₁`. -/
theorem run_or_violation (ok : σ → α → Prop) (h : FreeRun step s as t) :
    Run step ok s as t ∨
      ∃ as₁ a as₂ t₁ u₁, as = as₁ ++ a :: as₂ ∧ Run step ok s as₁ t₁ ∧ ¬ ok t₁ a ∧
        step t₁ a = some u₁ ∧ FreeRun step u₁ as₂ t := by
  induction h with
  | nil => exact .inl .nil
  | @snoc as t a u hrun _ hst ih =>
    rcases ih with hok | ⟨as₁, b, as₂, t₁, u₁, rfl, h₁, hnot, hb, h₂⟩
    · by_cases ha : ok t a
      · exact .inl (.snoc hok ha hst)
      · exact .inr ⟨as, a, [], t, u, rfl, hok, ha, hst, .nil⟩
    · refine .inr ⟨as₁, b, as₂ ++ [a], t₁, u₁, by simp, h₁, hnot, hb, ?_⟩
      exact .snoc h₂ trivial hst

/-- **The exactness rule.** Suppose `P` holds at the end of every run whose steps all meet `ok`, and
a step that does not meet `ok` leads to a state with `L`, which is never lost again and
excludes `P`. Then a run ends in `P` exactly when all its steps meet `ok`. -/
theorem holds_iff_run {P L : σ → Prop} {I : σ → Prop} (h : FreeRun step s as t) (hs : I s)
    (hI : ∀ t a u, I t → step t a = some u → I u)
    (hgood : Run step ok s as t → P t)
    (hviol : ∀ t a u, I t → ¬ ok t a → step t a = some u → L u)
    (hlost : ∀ t a u, I t → L t → step t a = some u → L u)
    (hbad : I t → L t → ¬ P t) :
    P t ↔ Run step ok s as t := by
  refine ⟨fun hP => ?_, hgood⟩
  have hIt : I t := h.invariant hs fun t a u ht _ hst => hI t a u ht hst
  rcases run_or_violation ok h with hok | ⟨as₁, a, as₂, t₁, u₁, -, h₁, hnot, hst, h₂⟩
  · exact hok
  · have ht₁ : I t₁ := h₁.invariant hs fun t a u ht _ hst => hI t a u ht hst
    have hu₁ : I u₁ ∧ L u₁ := ⟨hI _ _ _ ht₁ hst, hviol _ _ _ ht₁ hnot hst⟩
    have hend : I t ∧ L t := h₂.invariant (I := fun t => I t ∧ L t) hu₁
      fun t a u ht _ hst => ⟨hI _ _ _ ht.1 hst, hlost _ _ _ ht.1 ht.2 hst⟩
    exact absurd hP (hbad hIt hend.2)

end FreeRun

/-! ### Traces -/

/-- What is seen of the steps along some actions, as far as they are possible. -/
def trace {ω : Type*} (step : σ → α → Option σ) (seen : σ → α → σ → List ω) :
    σ → List α → List ω
  | _, [] => []
  | s, a :: as =>
    match step s a with
    | some t => seen s a t ++ trace step seen t as
    | none => []

namespace Run

variable {ω : Type*} {step : σ → α → Option σ} {ok : σ → α → Prop} {seen : σ → α → σ → List ω}
  {s t u : σ} {as : List α} {a : α}

theorem trace_append (h : Run step ok s as t) (bs : List α) :
    trace step seen s (as ++ bs) = trace step seen s as ++ trace step seen t bs := by
  induction h generalizing bs with
  | nil => rfl
  | @snoc as t a u _ _ hst ih =>
    have hone : ∀ bs, trace step seen t (a :: bs) = seen t a u ++ trace step seen u bs := by
      intro bs
      rw [trace, hst]
    rw [List.append_assoc, List.singleton_append, ih, ih, hone, hone, trace, List.append_nil,
      List.append_assoc]

theorem trace_snoc (h : Run step ok s as t) (hst : step t a = some u) :
    trace step seen s (as ++ [a]) = trace step seen s as ++ seen t a u := by
  rw [h.trace_append, trace, hst]
  exact congrArg _ (List.append_nil _)

/-- **The trace rule.** What holds at the start, with nothing seen, and is kept by every step, with
what is seen of it, holds at the end of every run. -/
theorem trace_invariant {I : List α → σ → List ω → Prop} (h : Run step ok s as t)
    (hs : I [] s []) (hstep : ∀ as t a u seenSoFar, Run step ok s as t → I as t seenSoFar →
      ok t a → step t a = some u → I (as ++ [a]) u (seenSoFar ++ seen t a u)) :
    I as t (trace step seen s as) := by
  induction h with
  | nil => exact hs
  | snoc hrun hok hst ih =>
    rw [hrun.trace_snoc hst]
    exact hstep _ _ _ _ _ hrun ih hok hst

end Run

/-- Run a list of actions; `none` as soon as one of them is not possible or does not meet `ok`. -/
def runActions (step : σ → α → Option σ) (ok : σ → α → Prop) [∀ s a, Decidable (ok s a)] :
    σ → List α → Option σ
  | s, [] => some s
  | s, a :: as => if ok s a then (step s a).bind fun t => runActions step ok t as else none

/-- What `runActions` computes is a run. -/
theorem run_of_runActions {step : σ → α → Option σ} {ok : σ → α → Prop}
    [∀ s a, Decidable (ok s a)] :
    ∀ (as : List α) {s t : σ}, runActions step ok s as = some t → Run step ok s as t
  | [], s, t, h => by
    obtain rfl := Option.some.inj h
    exact .nil
  | a :: as, s, t, h => by
    rw [runActions, Option.ite_none_right_eq_some, Option.bind_eq_some_iff] at h
    obtain ⟨hok, u, hu, hrest⟩ := h
    have hone : Run step ok s [a] u := .single hok hu
    exact hone.trans (run_of_runActions as hrest)

end Huginn
