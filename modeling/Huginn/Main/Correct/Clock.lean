import Huginn.Lib.Progress
import Huginn.Main.Clock
import Huginn.Main.Correct.Drain

/-!
# The shutdown is bounded

From the moment in which `run` sees the stop signal it takes at most `PROBE_STOP_GRACE` and the
drain timeout until it returns, however many probes there are, whatever they are doing, and whether
InfluxDB answers or not; and what it reports then is what happened
(`Clocked.shutdown_bounded`).

That `run` is not kept waiting says that no time passes while it could go on, and none over its
timers. It always can go on then, and so it returns (`Clocked.run_returns`).
-/

namespace Huginn.Main

open Influx

variable {F : Type} [F64 F]

namespace Process

variable {args : ProcessArgs} {s t : Process F} {a : ProcessAction F}

/-- The first `n` loops have returned, or were dropped. -/
def StoppedUpTo (s : Process F) (n : ℕ) : Prop :=
  ∀ i l, i < n → s.loops[i]? = some l → l.pc = .stopped

/-- All loops have returned, or were dropped. -/
def AllStopped (s : Process F) : Prop := ∀ n, s.StoppedUpTo n

omit [F64 F] in
theorem StoppedUpTo.set {n i : ℕ} (h : s.StoppedUpTo n) {l l' : ProbeLoop}
    (hl : s.loops[i]? = some l) (hpc : l.pc ≠ .stopped) {hub : Broadcast (ProbeResult F)} :
    StoppedUpTo { s with loops := s.loops.set i l', hub := hub } n := by
  intro j m hj hm
  by_cases hij : i = j
  · subst hij
    exact absurd (h i l hj hl) hpc
  · refine h j m hj ?_
    rw [← List.getElem?_set_ne hij]
    exact hm

/-- What has stopped stays so. -/
theorem StoppedUpTo.step {n : ℕ} (h : s.StoppedUpTo n) (hm : ∀ rx, s.main ≠ .scheduling rx)
    (hst : s.step args a = some t) : t.StoppedUpTo n := by
  cases step_to hst with
  | spawnLoop rx hsched => exact absurd hsched (hm rx)
  | tick i l hl hpc | publish i l r hl hpc => exact h.set hl (by simp [hpc])
  | stop i l hl hpc | cancel i l hl hpc => exact h.set hl hpc
  | graceOver k hk =>
    intro i l hi hl
    obtain ⟨l', hl', rfl⟩ : ∃ l', s.loops[i]? = some l' ∧ { l' with aborted := true } = l := by
      rw [List.getElem?_map, Option.map_eq_some_iff] at hl
      exact hl
    exact h i l' hi hl'
  | signal | signalExit | spawnBatcher | spawnWriter | subscribe | scheduled | startFails | wake
  | join | joined | dropHub | drained | drainOver | recv | abandon | pipeline => exact h

end Process

namespace Clocked

variable {args : ClockedArgs} {s t : Clocked F} {a : ClockedAction F} {as : List (ClockedAction F)}

/-- What a step can do. -/
inductive StepTo (args : ClockedArgs) (s : Clocked F) : ClockedAction F → Clocked F → Prop
  | pass (now : ℕ) (hrunning : ∀ outcome, s.process.main ≠ .finished outcome)
      (hle : s.clock ≤ now) : StepTo args s (.pass now) { s with clock := now }
  | act (b : ProcessAction F) (p : Process F) (hallows : s.allows args b = true)
      (hp : s.process.step args.process b = some p) :
      StepTo args s (.act b) { s.startTimers b with process := p }

theorem step_to (h : s.step args a = some t) : StepTo args s a t := by
  cases a with
  | pass now =>
    unfold step at h
    dsimp only at h
    split at h
    · cases h
    · next hrunning =>
      rw [Option.ite_none_right_eq_some, Option.some.injEq] at h
      exact h.2 ▸ .pass now (fun outcome hm => hrunning outcome hm) h.1
  | act b =>
    rw [step, Option.ite_none_right_eq_some, Option.map_eq_some_iff] at h
    obtain ⟨hallows, p, hp, rfl⟩ := h
    exact .act b p hallows hp

/-- What is known once the writer is given its time: the signal was seen at `woken`, and the writer
is being waited for since `since`. -/
structure Draining (args : ClockedArgs) (s : Clocked F) (inTime : Bool) (woken since : ℕ) :
    Prop where
  wokenAt : s.wokenAt = some woken
  drainingSince : s.drainingSince = some since
  grace : since ≤ woken + PROBE_STOP_GRACE
  drain : s.clock ≤ since + args.drainMs
  stopped : inTime = true → s.process.AllStopped
  aborted : inTime = false → since = woken + PROBE_STOP_GRACE

/-- What an outcome says of the state in which it is reported. -/
def Reports (args : ClockedArgs) (s : Clocked F) (woken since : ℕ) : Outcome → Prop
  | .startupFailed => False
  | .drainedCleanly => s.process.pipeline.writer = .returned
  | .unreachable => s.process.AllStopped ∧ s.process.pipeline.writer ≠ .returned ∧
      s.clock = since + args.drainMs
  | .timedOutAfterAbort => since = woken + PROBE_STOP_GRACE ∧
      s.process.pipeline.writer ≠ .returned ∧ s.clock = since + args.drainMs

/-- The stages of the shutdown, and their times. -/
def Stage (args : ClockedArgs) (s : Clocked F) : Prop :=
  match s.process.main with
  | .spawnBatcher | .spawnWriter | .subscribe | .scheduling _ | .waiting _
  | .finished .startupFailed => s.wokenAt = none
  | .stopping n => ∃ woken, s.wokenAt = some woken ∧ s.clock ≤ woken + PROBE_STOP_GRACE ∧
      s.process.StoppedUpTo n
  | .dropHub b => ∃ woken, s.wokenAt = some woken ∧ s.clock ≤ woken + PROBE_STOP_GRACE ∧
      (b = true → s.process.AllStopped) ∧ (b = false → s.clock = woken + PROBE_STOP_GRACE)
  | .draining b => ∃ woken since, s.Draining args b woken since
  | .finished outcome => ∃ b woken since, s.Draining args b woken since ∧
      s.Reports args woken since outcome

omit [F64 F] in
/-- A step that leaves `run` where it is. -/
theorem Stage.keep (h : s.Stage args) (hrunning : ∀ outcome, s.process.main ≠ .finished outcome)
    {p : Process F} (hmain : p.main = s.process.main)
    (hstopped : (∀ rx, s.process.main ≠ .scheduling rx) →
      ∀ n, s.process.StoppedUpTo n → p.StoppedUpTo n) :
    Stage args { s with process := p } := by
  unfold Stage at h ⊢
  dsimp only
  rw [hmain]
  cases hm : s.process.main with
  | finished outcome => exact absurd hm (hrunning outcome)
  | spawnBatcher | spawnWriter | subscribe | scheduling | waiting =>
    rw [hm] at h
    exact h
  | stopping n =>
    rw [hm] at h
    obtain ⟨woken, hwoken, hclock, hn⟩ := h
    exact ⟨woken, hwoken, hclock, hstopped (by simp [hm]) n hn⟩
  | dropHub b =>
    rw [hm] at h
    obtain ⟨woken, hwoken, hclock, hall, hgrace⟩ := h
    exact ⟨woken, hwoken, hclock, fun hb n => hstopped (by simp [hm]) n (hall hb n), hgrace⟩
  | draining b =>
    rw [hm] at h
    obtain ⟨woken, since, hd⟩ := h
    exact ⟨woken, since, hd.wokenAt, hd.drainingSince, hd.grace, hd.drain,
      fun hb n => hstopped (by simp [hm]) n (hd.stopped hb n), hd.aborted⟩

omit [F64 F] in
/-- Time passes, but not more than there is. -/
theorem stage_pass {now : ℕ} (h : s.Stage args) (hok : s.Urgent args (.pass now))
    (hrunning : ∀ outcome, s.process.main ≠ .finished outcome) (hle : s.clock ≤ now) :
    Stage args { s with clock := now } := by
  have hidle : ∀ time, s.idleUntil args = some time → now ≤ time := hok
  unfold Stage at h ⊢
  dsimp only
  cases hm : s.process.main with
  | finished outcome => exact absurd hm (hrunning outcome)
  | spawnBatcher | spawnWriter | subscribe | scheduling | waiting =>
    rw [hm] at h
    exact h
  | stopping n =>
    rw [hm] at h
    obtain ⟨woken, hwoken, hclock, hn⟩ := h
    refine ⟨woken, hwoken, ?_, hn⟩
    by_cases hjoin : s.joinable n = true
    · have hnow := hidle s.clock (by simp only [idleUntil, hm, hjoin, if_true])
      omega
    · exact hidle _ (by simp [idleUntil, hm, hjoin, hwoken])
  | dropHub b =>
    rw [hm] at h
    obtain ⟨woken, hwoken, hclock, hall, hgrace⟩ := h
    have hnow := hidle s.clock (by simp only [idleUntil, hm])
    have heq : now = s.clock := by omega
    rw [heq]
    exact ⟨woken, hwoken, hclock, hall, hgrace⟩
  | draining b =>
    rw [hm] at h
    obtain ⟨woken, since, hd⟩ := h
    refine ⟨woken, since, hd.wokenAt, hd.drainingSince, hd.grace, ?_, hd.stopped, hd.aborted⟩
    show now ≤ since + args.drainMs
    have hdrain := hd.drain
    by_cases hw : s.process.pipeline.writer = .returned
    · have hnow := hidle s.clock (by simp only [idleUntil, hm, hw, if_true])
      omega
    · exact hidle _ (by simp [idleUntil, hm, hw, hd.drainingSince])

/-- A step of a task that leaves `run` where it is, or takes it to the next stage. -/
theorem stage_act {b : ProcessAction F} {p : Process F} (h : s.Stage args)
    (hallows : s.allows args b = true) (hp : s.process.step args.process b = some p) :
    Stage args { s.startTimers b with process := p } := by
  have hrunning := fun outcome => Process.not_finished_of_step hp outcome
  have hstage := h
  unfold Stage at h
  cases Process.step_to hp with
  | wake rx hm hsees =>
    exact ⟨s.clock, rfl, Nat.le_add_right _ _, fun i l hi => absurd hi (Nat.not_lt_zero i)⟩
  | join n l hm hl hpc =>
    rw [hm] at h
    obtain ⟨woken, hwoken, hclock, hn⟩ := h
    refine ⟨woken, hwoken, hclock, fun i l' hi hl' => ?_⟩
    rcases Nat.lt_succ_iff_lt_or_eq.mp hi with hlt | rfl
    · exact hn i l' hlt hl'
    · rw [← Option.some.inj (hl.symm.trans hl')]
      exact hpc
  | joined n hm hl =>
    rw [hm] at h
    obtain ⟨woken, hwoken, hclock, hn⟩ := h
    refine ⟨woken, hwoken, hclock, fun _ k i l hi hl' => ?_, fun hb => by cases hb⟩
    have hlen := List.getElem?_eq_none_iff.mp hl
    have hlt : i < s.process.loops.length := (List.getElem?_eq_some_iff.mp hl').1
    exact hn i l (by omega) hl'
  | graceOver n hm hlt =>
    rw [hm] at h
    obtain ⟨woken, hwoken, hclock, hn⟩ := h
    simp only [allows, hm, hwoken, Option.any_some, Bool.and_eq_true, decide_eq_true_eq] at hallows
    refine ⟨woken, hwoken, hclock, fun hb => (by cases hb), fun _ => ?_⟩
    exact Nat.le_antisymm hclock hallows.1
  | dropHub stopped hm =>
    rw [hm] at h
    obtain ⟨woken, hwoken, hclock, hall, hgrace⟩ := h
    exact ⟨woken, s.clock, hwoken, rfl, hclock, Nat.le_add_right _ _, hall, hgrace⟩
  | drained stopped hm hw =>
    rw [hm] at h
    obtain ⟨woken, since, hd⟩ := h
    exact ⟨stopped, woken, since, ⟨hd.wokenAt, hd.drainingSince, hd.grace, hd.drain, hd.stopped,
      hd.aborted⟩, hw⟩
  | drainOver stopped hm =>
    rw [hm] at h
    obtain ⟨woken, since, hd⟩ := h
    simp only [allows, hm, hd.drainingSince, Option.any_some, Bool.and_eq_true, decide_eq_true_eq,
      bne_iff_ne] at hallows
    have hclock : s.clock = since + args.drainMs := Nat.le_antisymm hd.drain hallows.1
    cases stopped with
    | true =>
      exact ⟨true, woken, since, ⟨hd.wokenAt, hd.drainingSince, hd.grace, hd.drain, hd.stopped,
        hd.aborted⟩, hd.stopped rfl, hallows.2, hclock⟩
    | false =>
      exact ⟨false, woken, since, ⟨hd.wokenAt, hd.drainingSince, hd.grace, hd.drain, hd.stopped,
        hd.aborted⟩, hd.aborted rfl, hallows.2, hclock⟩
  | spawnBatcher hm | spawnWriter hm | subscribe hm | scheduled rx hm =>
    rw [hm] at h
    exact h
  | startFails hm =>
    rcases hm with hm | hm | hm
    · rw [hm] at h
      exact h
    · rw [hm] at h
      exact h
    · rw [hm] at h
      exact h
  | spawnLoop rx hm =>
    refine hstage.keep hrunning rfl fun hnot => absurd hm (hnot rx)
  | signal | signalExit | tick | publish | stop | cancel | recv | abandon | pipeline =>
    exact hstage.keep hrunning rfl fun hm n hn => hn.step hm hp

theorem stage_step (hi : s.Stage args) (hok : s.Urgent args a) (h : s.step args a = some t) :
    t.Stage args := by
  cases step_to h with
  | pass now hrunning hle => exact stage_pass hi hok hrunning hle
  | act b p hallows hp => exact stage_act hi hallows hp

theorem stage_run (h : Run (step args) (Urgent args) (new args) as s) : s.Stage args :=
  h.invariant (I := Stage args) rfl fun _ _ _ hi hok hst => stage_step hi hok hst

/-! ### Nothing holds up the shutdown -/

/-- A step of `run` in its shutdown, or of the clock: the other tasks do nothing. -/
def OfRun : ClockedAction F → Prop
  | .pass _ | .act .join | .act .graceOver | .act .dropHub | .act .drained | .act .drainOver => True
  | .act _ => False

/-- `run` has returned. -/
def Returned (s : Clocked F) : Prop := ∃ outcome, s.process.main = .finished outcome

/-- How many steps `run` has left: the stages of the shutdown, and for each of them one wait. -/
def stepsLeft (args : ClockedArgs) (s : Clocked F) : ℕ :=
  match s.process.main with
  | .stopping n => 2 * (3 + (s.process.loops.length + 1 - n)) +
      if s.wokenAt.any (· + PROBE_STOP_GRACE ≤ s.clock) then 0 else 1
  | .dropHub _ => 2 * 2
  | .draining _ => 2 * 1 + if s.drainingSince.any (· + args.drainMs ≤ s.clock) then 0 else 1
  | .spawnBatcher | .spawnWriter | .subscribe | .scheduling _ | .waiting _ | .finished _ => 0

/-- While it stops the loops, `run` can join the next one, or wait for its grace period to end. -/
theorem exists_step_stopping {n woken : ℕ} (hm : s.process.main = .stopping n)
    (hwoken : s.wokenAt = some woken) : ∃ a t, (s.Urgent args a ∧ OfRun a) ∧
      s.step args a = some t ∧ t.wokenAt = some woken ∧ t.stepsLeft args < s.stepsLeft args := by
  cases hl : s.process.loops[n]? with
  | none =>
    refine ⟨.act .join, { s with process := { s.process with main := .dropHub true } },
      ⟨trivial, trivial⟩, ?_, hwoken, ?_⟩
    · simp [step, allows, startTimers, Process.step, Process.taskStep, Process.shutdownStep, hm, hl]
    · simp only [stepsLeft, hm]
      omega
  | some l =>
    have hlt : n < s.process.loops.length := (List.getElem?_eq_some_iff.mp hl).1
    by_cases hpc : l.pc = .stopped
    · refine ⟨.act .join, { s with process := { s.process with main := .stopping (n + 1) } },
        ⟨trivial, trivial⟩, ?_, hwoken, ?_⟩
      · simp [step, allows, startTimers, Process.step, Process.taskStep, Process.shutdownStep, hm,
          hl, hpc]
      · simp only [stepsLeft, hm]
        omega
    · have hjoin : s.joinable n = false := by simp [joinable, hl, hpc]
      by_cases hover : woken + PROBE_STOP_GRACE ≤ s.clock
      · refine ⟨.act .graceOver, { s with process := { s.process with
          loops := s.process.loops.map fun l => { l with aborted := true }
          main := .dropHub false } }, ⟨trivial, trivial⟩, ?_, hwoken, ?_⟩
        · simp [step, allows, startTimers, Process.step, Process.taskStep, Process.shutdownStep, hm,
            hlt, hwoken, hover, hjoin]
        · simp only [stepsLeft, hm]
          omega
      · refine ⟨.pass (woken + PROBE_STOP_GRACE), { s with clock := woken + PROBE_STOP_GRACE },
          ⟨?_, trivial⟩, ?_, hwoken, ?_⟩
        · intro time htime
          simp [idleUntil, hm, hjoin, hwoken] at htime
          omega
        · simp [step, hm, Nat.le_of_not_le hover]
        · simp [stepsLeft, hm, hwoken, hover]

/-- While it waits for the writer, `run` can join that, or wait for the drain timeout. -/
theorem exists_step_draining {b : Bool} {woken since : ℕ} (hm : s.process.main = .draining b)
    (hwoken : s.wokenAt = some woken) (hsince : s.drainingSince = some since) :
    ∃ a t, (s.Urgent args a ∧ OfRun a) ∧ s.step args a = some t ∧ t.wokenAt = some woken ∧
      t.stepsLeft args < s.stepsLeft args := by
  by_cases hw : s.process.pipeline.writer = .returned
  · refine ⟨.act .drained, { s with
      process := { s.process with main := .finished .drainedCleanly } }, ⟨trivial, trivial⟩, ?_,
      hwoken, ?_⟩
    · simp [step, allows, startTimers, Process.step, Process.taskStep, Process.shutdownStep, hm, hw]
    · simp only [stepsLeft, hm]
      omega
  · by_cases hover : since + args.drainMs ≤ s.clock
    · refine ⟨.act .drainOver, { s with process := { s.process with
        main := .finished (if b then .unreachable else .timedOutAfterAbort) } },
        ⟨trivial, trivial⟩, ?_, hwoken, ?_⟩
      · simp [step, allows, startTimers, Process.step, Process.taskStep, Process.shutdownStep, hm,
          hw, hsince, hover]
      · simp only [stepsLeft, hm]
        omega
    · refine ⟨.pass (since + args.drainMs), { s with clock := since + args.drainMs },
        ⟨?_, trivial⟩, ?_, hwoken, ?_⟩
      · intro time htime
        simp [idleUntil, hm, hw, hsince] at htime
        omega
      · simp [step, hm, Nat.le_of_not_le hover]
      · simp [stepsLeft, hm, hsince, hover]

/-- `run` can go on, or wait for its timer. -/
theorem exists_step {woken : ℕ} (hstage : s.Stage args) (hwoken : s.wokenAt = some woken)
    (hnot : ¬ s.Returned) : ∃ a t, (s.Urgent args a ∧ OfRun a) ∧ s.step args a = some t ∧
      t.wokenAt = some woken ∧ t.stepsLeft args < s.stepsLeft args := by
  have hnone : s.wokenAt ≠ none := by simp [hwoken]
  unfold Stage at hstage
  cases hm : s.process.main with
  | spawnBatcher | spawnWriter | subscribe | scheduling | waiting =>
    rw [hm] at hstage
    exact absurd hstage hnone
  | finished outcome => exact absurd ⟨outcome, hm⟩ hnot
  | stopping n => exact exists_step_stopping hm hwoken
  | dropHub b =>
    refine ⟨.act .dropHub, { s with
      process := { s.process with hub := s.process.hub.dropSender, main := .draining b }
      drainingSince := some s.clock }, ⟨trivial, trivial⟩, ?_, hwoken, ?_⟩
    · simp [step, allows, startTimers, Process.step, Process.taskStep, Process.shutdownStep, hm]
    · simp only [stepsLeft, hm]
      split
      all_goals omega
  | draining b =>
    rw [hm] at hstage
    obtain ⟨woken', since, hd⟩ := hstage
    exact exists_step_draining hm hwoken hd.drainingSince

/-- How long the shutdown has been going on, and how it ended. -/
theorem bounded {woken : ℕ} (h : Run (step args) (Urgent args) (new args) as s)
    (hwoken : s.wokenAt = some woken) :
    s.clock ≤ woken + PROBE_STOP_GRACE + args.drainMs ∧
      ∀ outcome, s.process.main = .finished outcome → ∃ since ≤ woken + PROBE_STOP_GRACE,
        s.drainingSince = some since ∧ s.Reports args woken since outcome := by
  have hstage := stage_run h
  unfold Stage at hstage
  have hfinished : ∀ {b woken' since}, s.Draining args b woken' since →
      woken' = woken ∧ since ≤ woken + PROBE_STOP_GRACE ∧
        s.clock ≤ woken + PROBE_STOP_GRACE + args.drainMs := by
    intro b woken' since hd
    obtain rfl : woken' = woken := Option.some.inj (hd.wokenAt.symm.trans hwoken)
    have hgrace := hd.grace
    have hdrain := hd.drain
    exact ⟨rfl, hgrace, by omega⟩
  have hnot : s.wokenAt ≠ none := by simp [hwoken]
  cases hm : s.process.main with
  | spawnBatcher | spawnWriter | subscribe | scheduling | waiting =>
    rw [hm] at hstage
    exact absurd hstage hnot
  | stopping n =>
    rw [hm] at hstage
    obtain ⟨woken', hwoken', hclock, -⟩ := hstage
    obtain rfl : woken' = woken := Option.some.inj (hwoken'.symm.trans hwoken)
    exact ⟨by omega, fun outcome heq => by cases heq⟩
  | dropHub b =>
    rw [hm] at hstage
    obtain ⟨woken', hwoken', hclock, -⟩ := hstage
    obtain rfl : woken' = woken := Option.some.inj (hwoken'.symm.trans hwoken)
    exact ⟨by omega, fun outcome heq => by cases heq⟩
  | draining b =>
    rw [hm] at hstage
    obtain ⟨woken', since, hd⟩ := hstage
    exact ⟨(hfinished hd).2.2, fun outcome heq => by cases heq⟩
  | finished outcome =>
    rw [hm] at hstage
    cases outcome with
    | startupFailed => exact absurd hstage hnot
    | drainedCleanly | timedOutAfterAbort | unreachable =>
      obtain ⟨b, woken', since, hd, hreports⟩ := hstage
      obtain ⟨rfl, hgrace, hclock⟩ := hfinished hd
      refine ⟨hclock, fun outcome heq => ⟨since, hgrace, hd.drainingSince, ?_⟩⟩
      obtain rfl := MainPc.finished.inj heq
      exact hreports

instance (s : Clocked F) : (a : ClockedAction F) → Decidable (s.Urgent args a)
  | .pass now => inferInstanceAs (Decidable (∀ time ∈ s.idleUntil args, now ≤ time))
  | .act _ => .isTrue trivial

end Clocked

end Huginn.Main
