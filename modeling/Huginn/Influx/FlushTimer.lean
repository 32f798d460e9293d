import Huginn.Influx.Pipeline

/-!
# The batcher and its flush timer

`run_batcher` with the time that `Pipeline` leaves out: `flush_deadline`, which is set when the task
starts and after every flush but the last. The queue and the writer go on as before.

Times are in milliseconds. The history fields are never read by a step. They record when what is in
the buffer was received, and of every result that was queued when it was received and when it was
queued.
-/

namespace Huginn.Influx

variable {F : Type} [F64 F]

/-- The arguments: also `batch_timeout_ms`. -/
structure FlushArgs where
  pipeline : PipelineArgs
  batchTimeoutMs : ℕ
  deriving DecidableEq, Repr

/-- A result that was queued, and when. -/
structure Queued (F : Type) where
  result : ProbeResult F
  received : ℕ
  queued : ℕ

structure FlushTimer (F : Type) where
  pipeline : Pipeline F
  clock : ℕ
  flushDeadline : ℕ
  -- the history
  arrivals : List (ProbeResult F × ℕ)
  queued : List (Queued F)

inductive FlushAction (F : Type)
  | pass (now : ℕ)
  | act (a : PipelineAction F)

namespace FlushTimer

/-- The batcher at its start. -/
def new (args : FlushArgs) (capacityBytes : ℕ) : FlushTimer F :=
  ⟨.new capacityBytes, 0, args.batchTimeoutMs, [], []⟩

/-- What a step of the two tasks does to the timer, and what is recorded of it. -/
def afterStep (args : FlushArgs) (s : FlushTimer F) (a : PipelineAction F) (p : Pipeline F) :
    FlushTimer F :=
  match a with
  | .recv (.ok result) =>
    { s with pipeline := p, arrivals := s.arrivals ++ [(result, s.clock)] }
  | .enqueue =>
    { s with
      pipeline := p
      -- the batcher does not wait any more after its last flush
      flushDeadline :=
        if s.pipeline.batcher = .enqueue true then s.flushDeadline
        else s.clock + args.batchTimeoutMs
      arrivals := []
      queued := s.queued ++ s.arrivals.map fun w => ⟨w.1, w.2, s.clock⟩ }
  | _ => { s with pipeline := p }

def step (args : FlushArgs) (s : FlushTimer F) : FlushAction F → Option (FlushTimer F)
  | .pass now => if s.clock ≤ now then some { s with clock := now } else none
  | .act .timer =>
    if s.flushDeadline ≤ s.clock then
      (s.pipeline.step args.pipeline .timer).map (s.afterStep args .timer)
    else none
  | .act a => (s.pipeline.step args.pipeline a).map (s.afterStep args a)

/-- The runtime gets to the flush timer at most `late` milliseconds after it is due, and there is
nothing to wait for in a flush. This bounds the clock, so it is to be shown that the batcher can
always go on then (`time_passes`). -/
def Prompt (late : ℕ) (s : FlushTimer F) : FlushAction F → Prop
  | .pass now =>
    match s.pipeline.batcher with
    | .select => now ≤ s.flushDeadline + late
    | .enqueue _ => now ≤ s.clock
    | .close | .exited => True
  | .act _ => True

end FlushTimer

end Huginn.Influx
