import Huginn.Lib.Run

/-!
# Progress

What a measure of the states says about runs. Where some step lowers the measure until an aim is
reached, a run of at most that many steps leads there (`Run.exists_until`,
`Run.exists_of_measure`): this is what can always be done. Where every step lowers it, no run is
longer (`Run.length_add_measure_le`): this is what is done whatever happens.
-/

namespace Huginn

variable {σ α : Type*} {step : σ → α → Option σ} {ok : σ → α → Prop} {I : σ → Prop} {m : σ → ℕ}

namespace Run

/-- **What can be done.** Where some step lowers the measure until the aim is reached, a run of at
most that many steps reaches it. -/
theorem exists_until (P : σ → Prop)
    (hstep : ∀ s, I s → ¬ P s → ∃ a t, ok s a ∧ step s a = some t ∧ I t ∧ m t < m s) {s : σ}
    (hs : I s) : ∃ as t, as.length ≤ m s ∧ Run step ok s as t ∧ I t ∧ P t := by
  -- on the measure
  induction hn : m s using Nat.strongRecOn generalizing s with
  | ind n ih =>
    by_cases hdone : P s
    · exact ⟨[], s, Nat.zero_le _, .nil, hs, hdone⟩
    · obtain ⟨a, t, hok, hst, ht, hlt⟩ := hstep s hs hdone
      obtain ⟨as, u, hlen, hrun, hu, hend⟩ := ih (m t) (hn ▸ hlt) ht rfl
      have hone : Run step ok s [a] t := .single hok hst
      refine ⟨a :: as, u, ?_, hone.trans hrun, hu, hend⟩
      rw [List.length_cons]
      omega

/-- The same, until there is nothing left to measure. -/
theorem exists_of_measure
    (hstep : ∀ s, I s → m s ≠ 0 → ∃ a t, ok s a ∧ step s a = some t ∧ I t ∧ m t < m s) {s : σ}
    (hs : I s) : ∃ as t, as.length ≤ m s ∧ Run step ok s as t ∧ I t ∧ m t = 0 :=
  exists_until (m · = 0) hstep hs

/-- **What is done whatever happens.** -/
theorem length_add_measure_le {s t : σ} {as : List α} (h : Run step ok s as t) (hs : I s)
    (hI : ∀ t a u, I t → ok t a → step t a = some u → I u)
    (hlt : ∀ t a u, I t → ok t a → step t a = some u → m u < m t) : as.length + m t ≤ m s := by
  induction h with
  | nil => simp
  | @snoc as t a u hrun hok hst ih =>
    have ht : I t := hrun.invariant hs hI
    have hless : m u < m t := hlt t a u ht hok hst
    rw [List.length_append, List.length_singleton]
    omega

end Run

end Huginn
