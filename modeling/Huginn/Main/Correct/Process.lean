import Huginn.Main.Process

/-!
# The steps of the process

What a step can do, by where it was taken (`Process.step_to`), and what it is for the pipeline: a
step of the batcher or the writer, or none (`Process.pipeline_step`).
-/

namespace Huginn.Main

open Influx

namespace Process

variable {F : Type} [F64 F] {args : ProcessArgs} {s t : Process F} {a : ProcessAction F}

/-- What a step can do, by where it was taken. -/
inductive StepTo (args : ProcessArgs) (s : Process F) : ProcessAction F → Process F → Prop
  | signal (hs : s.signal = .waiting) :
      StepTo args s .signal { s with shutdown := s.shutdown.send (), signal := .sent }
  | signalExit (hs : s.signal = .sent) :
      StepTo args s .signalExit { s with shutdown := s.shutdown.dropSender, signal := .finished }
  | spawnBatcher (hm : s.main = .spawnBatcher) :
      StepTo args s .start { s with batcherRx := some s.hub.subscribe, main := .spawnWriter }
  | spawnWriter (hm : s.main = .spawnWriter) :
      StepTo args s .start { s with writerRx := some s.shutdown.subscribe, main := .subscribe }
  | subscribe (hm : s.main = .subscribe) :
      StepTo args s .start { s with main := .scheduling s.shutdown.subscribe }
  | spawnLoop (rx : ℕ) (hm : s.main = .scheduling rx) (hlt : s.loops.length < args.probes) :
      StepTo args s .start { s with
        loops := s.loops ++ [⟨.waiting, s.shutdown.subscribe, false⟩]
        hub := s.hub.addSender }
  | scheduled (rx : ℕ) (hm : s.main = .scheduling rx) (hle : args.probes ≤ s.loops.length) :
      StepTo args s .start { s with shutdown := s.shutdown.dropSender, main := .waiting rx }
  | startFails (hm : s.main = .spawnBatcher ∨ s.main = .spawnWriter ∨ s.main = .subscribe) :
      StepTo args s .startFails { s with main := .finished .startupFailed }
  | wake (rx : ℕ) (hm : s.main = .waiting rx) (hsees : s.sees rx = true) :
      StepTo args s .wake { s with main := .stopping 0 }
  | join (n : ℕ) (l : ProbeLoop) (hm : s.main = .stopping n) (hl : s.loops[n]? = some l)
      (hpc : l.pc = .stopped) : StepTo args s .join { s with main := .stopping (n + 1) }
  | joined (n : ℕ) (hm : s.main = .stopping n) (hl : s.loops[n]? = none) :
      StepTo args s .join { s with main := .dropHub true }
  | graceOver (n : ℕ) (hm : s.main = .stopping n) (hlt : n < s.loops.length) :
      StepTo args s .graceOver { s with
        loops := s.loops.map fun l => { l with aborted := true }
        main := .dropHub false }
  | dropHub (stopped : Bool) (hm : s.main = .dropHub stopped) :
      StepTo args s .dropHub { s with hub := s.hub.dropSender, main := .draining stopped }
  | drained (stopped : Bool) (hm : s.main = .draining stopped)
      (hw : s.pipeline.writer = .returned) :
      StepTo args s .drained { s with main := .finished .drainedCleanly }
  | drainOver (stopped : Bool) (hm : s.main = .draining stopped) :
      StepTo args s .drainOver
        { s with main := .finished (if stopped then .unreachable else .timedOutAfterAbort) }
  | tick (i : ℕ) (l : ProbeLoop) (hl : s.loops[i]? = some l) (hpc : l.pc = .waiting) :
      StepTo args s (.tick i) { s with loops := s.loops.set i { l with pc := .probing } }
  | publish (i : ℕ) (l : ProbeLoop) (r : ProbeResult F) (hl : s.loops[i]? = some l)
      (hpc : l.pc = .probing) :
      StepTo args s (.publish i r) { s with
        loops := s.loops.set i { l with pc := .waiting }
        hub := s.hub.send r }
  | stop (i : ℕ) (l : ProbeLoop) (hl : s.loops[i]? = some l) (hpc : l.pc ≠ .stopped)
      (hsees : s.sees l.shutdownRx = true) :
      StepTo args s (.stop i) { s with
        loops := s.loops.set i { l with pc := .stopped }
        hub := s.hub.dropSender }
  | cancel (i : ℕ) (l : ProbeLoop) (hl : s.loops[i]? = some l) (hpc : l.pc ≠ .stopped)
      (habort : l.aborted = true) :
      StepTo args s (.cancel i) { s with
        loops := s.loops.set i { l with pc := .stopped }
        hub := s.hub.dropSender }
  | recv (rx rx' : ℕ) (event : Recv (ProbeResult F)) (p : Pipeline F)
      (hrx : s.batcherRx = some rx) (hrecv : s.hub.recv rx = some (event, rx'))
      (hp : s.pipeline.step args.pipeline (.recv event) = some p) :
      StepTo args s .recv { s with pipeline := p, batcherRx := some rx' }
  | abandon (rx : ℕ) (p : Pipeline F) (hrx : s.writerRx = some rx) (hsees : s.sees rx = true)
      (hp : s.pipeline.step args.pipeline .shutdown = some p) :
      StepTo args s .abandon { s with pipeline := p }
  | pipeline (b : PipelineAction F) (p : Pipeline F) (hb : b ≠ .shutdown)
      (hp : s.pipeline.step args.pipeline b = some p) :
      StepTo args s (.pipeline b) { s with pipeline := p }

theorem startStep_to (h : s.startStep args = some t) : StepTo args s .start t := by
  unfold startStep at h
  split at h
  · next hm => exact Option.some.inj h ▸ .spawnBatcher hm
  · next hm => exact Option.some.inj h ▸ .spawnWriter hm
  · next hm => exact Option.some.inj h ▸ .subscribe hm
  · next rx hm =>
    split_ifs at h with hlt
    · exact Option.some.inj h ▸ .spawnLoop rx hm hlt
    · exact Option.some.inj h ▸ .scheduled rx hm (Nat.le_of_not_lt hlt)
  all_goals cases h

theorem shutdownStep_to (h : s.shutdownStep a = some t) : StepTo args s a t := by
  unfold shutdownStep at h
  split at h
  · next rx hm =>
    split_ifs at h with hsees
    exact Option.some.inj h ▸ .wake rx hm hsees
  · next n hm =>
    split at h
    · next hl => exact Option.some.inj h ▸ .joined n hm hl
    · next l hl =>
      split_ifs at h with hpc
      exact Option.some.inj h ▸ .join n l hm hl hpc
  · next n hm =>
    split_ifs at h with hlt
    exact Option.some.inj h ▸ .graceOver n hm hlt
  · next stopped hm => exact Option.some.inj h ▸ .dropHub stopped hm
  · next stopped hm =>
    split_ifs at h with hw
    exact Option.some.inj h ▸ .drained stopped hm hw
  · next stopped hm => exact Option.some.inj h ▸ .drainOver stopped hm
  · cases h

theorem loopStep_to {i : ℕ}
    (ha : a = .tick i ∨ (∃ r, a = .publish i r) ∨ a = .stop i ∨ a = .cancel i)
    (h : s.loopStep i a = some t) : StepTo args s a t := by
  rw [loopStep, Option.bind_eq_bind, Option.bind_eq_some_iff] at h
  obtain ⟨l, hl, h⟩ := h
  rcases ha with rfl | ⟨r, rfl⟩ | rfl | rfl
  · cases hpc : l.pc with
    | waiting =>
      simp only [hpc, Option.some.injEq] at h
      exact h ▸ .tick i l hl hpc
    | probing | stopped => simp [hpc] at h
  · cases hpc : l.pc with
    | probing =>
      simp only [hpc, Option.some.injEq] at h
      exact h ▸ .publish i l r hl hpc
    | waiting | stopped => simp [hpc] at h
  · cases hpc : l.pc with
    | waiting | probing =>
      simp only [hpc, Option.ite_none_right_eq_some, Option.some.injEq] at h
      exact h.2 ▸ .stop i l hl (by simp [hpc]) h.1
    | stopped => simp [hpc] at h
  · cases hpc : l.pc with
    | waiting | probing =>
      simp only [hpc, Option.ite_none_right_eq_some, Option.some.injEq] at h
      exact h.2 ▸ .cancel i l hl (by simp [hpc]) h.1
    | stopped => simp [hpc] at h

theorem pipelineStep_to {b : PipelineAction F} (h : s.pipelineStep args b = some t) :
    StepTo args s (.pipeline b) t := by
  unfold pipelineStep at h
  split at h
  · cases h
  · cases h
  all_goals
    simp only [Option.ite_none_left_eq_some, Option.map_eq_some_iff] at h
    obtain ⟨-, p, hp, rfl⟩ := h
    exact .pipeline _ p (by simp) hp

/-- **The step lemma**: what `step` computes is one of the above. -/
theorem step_to (h : s.step args a = some t) : StepTo args s a t := by
  have htask : s.taskStep args a = some t := by
    unfold step at h
    split at h
    · cases h
    · exact h
  clear h
  cases a with
  | signal =>
    simp only [taskStep, Option.ite_none_right_eq_some, Option.some.injEq] at htask
    exact htask.2 ▸ .signal htask.1
  | signalExit =>
    simp only [taskStep, Option.ite_none_right_eq_some, Option.some.injEq] at htask
    exact htask.2 ▸ .signalExit htask.1
  | start => exact startStep_to htask
  | startFails =>
    have hfail : s.startFails = some t := htask
    unfold startFails at hfail
    split at hfail
    · next hm => exact Option.some.inj hfail ▸ .startFails (.inl hm)
    · next hm => exact Option.some.inj hfail ▸ .startFails (.inr (.inl hm))
    · next hm => exact Option.some.inj hfail ▸ .startFails (.inr (.inr hm))
    all_goals cases hfail
  | wake | join | graceOver | dropHub | drained | drainOver => exact shutdownStep_to htask
  | tick i => exact loopStep_to (.inl rfl) htask
  | publish i r => exact loopStep_to (.inr (.inl ⟨r, rfl⟩)) htask
  | stop i => exact loopStep_to (.inr (.inr (.inl rfl))) htask
  | cancel i => exact loopStep_to (.inr (.inr (.inr rfl))) htask
  | recv =>
    simp only [taskStep, Option.bind_eq_bind, Option.bind_eq_some_iff, Option.some.injEq] at htask
    obtain ⟨rx, hrx, ⟨event, rx'⟩, hrecv, p, hp, rfl⟩ := htask
    exact .recv rx rx' event p hrx hrecv hp
  | abandon =>
    simp only [taskStep, Option.bind_eq_bind, Option.bind_eq_some_iff,
      Option.ite_none_right_eq_some, Option.map_eq_some_iff] at htask
    obtain ⟨rx, hrx, hsees, p, hp, rfl⟩ := htask
    exact .abandon rx p hrx hsees hp
  | pipeline b => exact pipelineStep_to htask

/-! ### The pipeline inside -/

/-- What a step of the process is for the pipeline. -/
inductive OnPipeline (args : ProcessArgs) (s : Process F) : ProcessAction F → Pipeline F → Prop
  | unchanged (a : ProcessAction F) (ha : a ≠ .abandon ∧ ∀ b, a ≠ .pipeline b) :
      OnPipeline args s a s.pipeline
  | recv (event : Recv (ProbeResult F)) (p : Pipeline F)
      (hp : s.pipeline.step args.pipeline (.recv event) = some p) : OnPipeline args s .recv p
  | abandon (p : Pipeline F) (hp : s.pipeline.step args.pipeline .shutdown = some p) :
      OnPipeline args s .abandon p
  | pipeline (b : PipelineAction F) (p : Pipeline F) (hb : b ≠ .shutdown)
      (hp : s.pipeline.step args.pipeline b = some p) : OnPipeline args s (.pipeline b) p

theorem pipeline_step (h : s.step args a = some t) : OnPipeline args s a t.pipeline := by
  cases step_to h with
  | recv rx rx' event p hrx hrecv hp => exact .recv event p hp
  | abandon rx p hrx hsees hp => exact .abandon p hp
  | pipeline b p hb hp => exact .pipeline b p hb hp
  | signal | signalExit | spawnBatcher | spawnWriter | subscribe | spawnLoop | scheduled
  | startFails | wake | join | joined | graceOver | dropHub | drained | drainOver | tick | publish
  | stop | cancel => exact .unchanged _ ⟨by simp, by simp⟩

/-- What every step of the pipeline keeps, every step of the process keeps. -/
theorem pipeline_invariant {I : Pipeline F → Prop}
    (hI : ∀ p b q, I p → p.step args.pipeline b = some q → I q) (hi : I s.pipeline)
    (h : s.step args a = some t) : I t.pipeline := by
  have hto := pipeline_step h
  generalize t.pipeline = q at hto ⊢
  cases hto with
  | unchanged => exact hi
  | recv event _ hp => exact hI _ _ _ hi hp
  | abandon _ hp => exact hI _ _ _ hi hp
  | pipeline b _ _ hp => exact hI _ _ _ hi hp

end Process

end Huginn.Main
