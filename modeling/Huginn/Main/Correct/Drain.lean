import Huginn.Influx.Correct.Drain
import Huginn.Main.Correct.Process

/-!
# Whether a clean drain is one

When `run` reports that the writer drained cleanly, everything is drained exactly in the runs whose
steps all meet `Process.LeavesNothing` (`Process.drained_iff`). The condition is met by neither of
the two ways in which the writer returns early: it leaves a backoff for the shutdown signal, or it
is told that there is nothing left while the last batch is queued.
-/

namespace Huginn.Main

open Influx

namespace Process

variable {F : Type} [F64 F] {args : ProcessArgs} {s t : Process F} {a : ProcessAction F}
  {as : List (ProcessAction F)}

/-! ### Runs of the pipeline inside -/

/-- A run that meets the condition is a run of the pipeline that meets its condition. -/
theorem pipeline_run (h : Run (step args) LeavesNothing (new args) as s) :
    ∃ bs, Run (Pipeline.step args.pipeline) Pipeline.LeavesNothing
      (.new args.maxBufferedBytes) bs s.pipeline := by
  refine h.simulate (I := fun _ => True) pipeline trivial (fun _ _ _ _ _ _ => trivial) ?_
  intro s a t _ hok hst
  have hto := pipeline_step hst
  generalize t.pipeline = q at hto ⊢
  cases hto with
  | unchanged => exact .inl rfl
  | recv event p hp => exact .inr ⟨.recv event, ⟨by simp, by simp⟩, hp⟩
  | abandon => exact absurd rfl hok.1
  | pipeline b p hb hp => exact .inr ⟨b, ⟨hb, fun heq => hok.2 (by rw [heq])⟩, hp⟩

/-- A step that does not meet the condition loses what is queued. -/
theorem lost_of_violation (hq : s.pipeline.QueueInv) (htaken : s.pipeline.TakenInv)
    (hnot : ¬ s.LeavesNothing a) (h : s.step args a = some t) : t.pipeline.Lost := by
  rw [LeavesNothing, not_and_or, not_not] at hnot
  have hto := pipeline_step h
  generalize t.pipeline = q at hto ⊢
  cases hto with
  | unchanged _ ha =>
    rcases hnot with rfl | hclose
    · exact absurd rfl ha.1
    · exact absurd (fun heq => absurd heq (ha.2 _)) hclose
  | recv event _ hp => simp at hnot
  | abandon _ hp => exact Pipeline.lost_of_violation hq htaken (fun hok => hok.1 rfl) hp
  | pipeline b _ hb hp =>
    refine Pipeline.lost_of_violation hq htaken (fun hok => ?_) hp
    rcases hnot with heq | hclose
    · cases heq
    · exact hclose fun heq => hok.2 (by injection heq)

/-! ### The report -/

/-- The writer has returned when it is reported to have drained cleanly. -/
def ReportInv (s : Process F) : Prop :=
  s.main = .finished .drainedCleanly → s.pipeline.writer = .returned

/-- `run` takes no step once it has returned. -/
theorem not_finished_of_step (h : s.step args a = some t) (outcome : Outcome) :
    s.main ≠ .finished outcome := by
  intro hm
  simp only [step, hm] at h
  cases h

theorem reportInv_step (h : s.step args a = some t) : t.ReportInv := by
  intro hm
  have hold := not_finished_of_step h .drainedCleanly
  cases step_to h with
  | drained stopped _ hw => exact hw
  | drainOver stopped =>
    cases stopped <;> cases hm
  | spawnBatcher | spawnWriter | subscribe | scheduled | startFails | wake | join | joined
  | graceOver | dropHub => cases hm
  | signal | signalExit | spawnLoop | tick | publish | stop | cancel | recv | abandon | pipeline =>
    exact absurd hm hold

theorem reportInv_run (h : FreeRun (step args) (new args) as s) : s.ReportInv :=
  h.invariant (I := ReportInv) (fun hm => by cases hm) fun _ _ _ _ _ hst => reportInv_step hst

/-- A run that leaves nothing has drained everything when it is reported to have. -/
theorem drained_of_report (hsize : 1 ≤ args.pipeline.batchSize)
    (h : Run (step args) LeavesNothing (new args) as s)
    (hreport : s.main = .finished .drainedCleanly) : s.pipeline.Drained := by
  obtain ⟨bs, hbs⟩ := pipeline_run h
  exact Pipeline.drained_of_returned hsize hbs (reportInv_run (h.mono fun _ _ _ => trivial) hreport)

/-- **A reported drain is one exactly in the runs that leave nothing.** In every run that ends with
the report that the writer drained cleanly, the last batch is queued and the queue closed, the queue
is empty, and every result received was accepted, permanently rejected, or counted as evicted, if
and only if every step of the run met the condition. -/
theorem drained_iff {F : Type} [F64 F] {args : ProcessArgs} {as : List (ProcessAction F)}
    {s : Process F} (hsize : 1 ≤ args.pipeline.batchSize) (h : FreeRun (step args) (new args) as s)
    (hreport : s.main = .finished .drainedCleanly) :
    s.pipeline.Drained ↔ Run (step args) LeavesNothing (new args) as s := by
  have hstep : ∀ (p : Pipeline F) b q, p.QueueInv ∧ p.TakenInv →
      p.step args.pipeline b = some q → q.QueueInv ∧ q.TakenInv := fun p b q hi hst =>
    ⟨Pipeline.queueInv_step hi.1 hst, Pipeline.takenInv_step hi.2 hst⟩
  refine h.holds_iff_run (P := fun s => s.pipeline.Drained) (L := fun s => s.pipeline.Lost)
    (I := fun s => s.pipeline.QueueInv ∧ s.pipeline.TakenInv) ?_ ?_ ?_ ?_ ?_ ?_
  · exact ⟨Pipeline.QueueInv.new _, Pipeline.takenInv_new⟩
  · exact fun s a t hi hst => pipeline_invariant hstep hi hst
  · exact fun hrun => drained_of_report hsize hrun hreport
  · exact fun s a t hi hnot hst => lost_of_violation hi.1 hi.2 hnot hst
  · exact fun s a t _ hl hst => pipeline_invariant (fun _ _ _ => Pipeline.lost_step) hl hst
  · exact fun _ hl hdrained => hl.1 hdrained.empty

/-- One probe, and batches of at most two results. -/
def sampleArgs : ProcessArgs := ⟨⟨2, .fromMillis 500, .fromMillis 30000⟩, 1024, 1, 16⟩

/-- Startup, and one result that the batcher receives. -/
def oneResult : List (ProcessAction Decimal) :=
  [.start, .start, .start, .start, .start, .tick 0, .publish 0 sampleResult, .recv]

/-- The shutdown up to the drain. -/
def shutdownStages : List (ProcessAction Decimal) :=
  [.wake, .stop 0, .join, .join, .dropHub]

/-- The result is still in the buffer when the signal comes. It is queued when the hub closes, and
written. -/
def drainPartialBatch : List (ProcessAction Decimal) :=
  oneResult ++ [.signal, .signalExit] ++ shutdownStages ++
    [.recv, .pipeline .enqueue, .pipeline .notifyOne, .pipeline .close, .pipeline .notifyWaiters,
      .pipeline .call, .pipeline .wait, .pipeline .ret, .pipeline (.answer (.ok ()) 0),
      .pipeline .pop, .pipeline .call, .pipeline .wait, .pipeline .wait, .pipeline .ret, .drained]

theorem drained_iff_partialBatch :
    ∃ s, FreeRun (step sampleArgs) (new sampleArgs) drainPartialBatch s ∧
      s.main = .finished .drainedCleanly ∧
      (s.pipeline.Drained ↔ Run (step sampleArgs) LeavesNothing (new sampleArgs)
        drainPartialBatch s) := by
  obtain ⟨s, hs⟩ : ∃ s, runActions (step sampleArgs) (fun _ _ => True) (new sampleArgs)
      drainPartialBatch = some s := ⟨_, rfl⟩
  have hreport : s.main = .finished .drainedCleanly := by
    obtain rfl := Option.some.inj hs
    rfl
  have hrun := run_of_runActions _ hs
  exact ⟨s, hrun, hreport, drained_iff (by decide) hrun hreport⟩

/-- The flush timer queues the result, a write of it fails, and the signal comes during the backoff.
The writer abandons the batch and returns, and is reported to have drained cleanly. -/
def signalInBackoff : List (ProcessAction Decimal) :=
  oneResult ++
    [.pipeline .timer, .pipeline .enqueue, .pipeline .notifyOne, .pipeline .call, .pipeline .wait,
      .pipeline .ret, .pipeline (.answer (.error (.transport "connection refused")) 0), .signal,
      .abandon] ++ shutdownStages ++ [.drained]

theorem signalInBackoff_not_drained :
    ¬ ∀ as s, FreeRun (step sampleArgs) (new sampleArgs : Process Decimal) as s →
      s.main = .finished .drainedCleanly → s.pipeline.Drained := by
  intro h
  obtain ⟨s, hs⟩ : ∃ s, runActions (step sampleArgs) (fun _ _ => True) (new sampleArgs)
      signalInBackoff = some s := ⟨_, rfl⟩
  have hend : s.main = .finished .drainedCleanly ∧
      s.pipeline.sys.queue.inner.batches.length = 1 := by
    obtain rfl := Option.some.inj hs
    exact ⟨rfl, rfl⟩
  have hempty := (h _ s (run_of_runActions _ hs) hend.1).empty
  rw [hempty] at hend
  exact absurd hend.2 (by decide)

end Process

end Huginn.Main
