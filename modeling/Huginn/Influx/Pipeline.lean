import Huginn.Influx.LineProtocol
import Huginn.Influx.WaitForBatch
import Huginn.Influx.Writer
import Huginn.Lib.Broadcast
import Huginn.Lib.Ledger

/-!
# The batcher, the retry queue and the writer

`run_batcher` and `run_writer`, cut at the points where they wait or touch what they share, on the
two sides of the queue. A run of `Pipeline.step` is an interleaving of the two with an environment
that decides what the batcher receives, when its flush timer fires, what each write comes to, when a
backoff is over and when the shutdown signal is seen.

The history fields at the end of `Pipeline` are never read by a step. They record what was received,
pushed, evicted and answered.
-/

namespace Huginn.Influx

/-- Where `run_batcher` stands: at the `select!`, about to call `enqueue` (the last time, in the
`Closed` arm), or about to call `queue.close()`. -/
inductive BatcherPc
  | select
  | enqueue (last : Bool)
  | close
  | exited
  deriving DecidableEq, Repr

/-- Where `run_writer` stands: at the head of the loop or in `wait_for_batch`, in `write_lines`,
before `pop_if_front` with the answer recorded, or at the `select!` between two attempts. -/
inductive WriterPc
  | waiting
  | writing (batch : Batch) (attempt : UInt32)
  | answered (batch : Batch)
  | backoff (batch : Batch) (attempt : UInt32) (delay : Duration)
  | returned
  deriving DecidableEq, Repr

/-- A batch that was pushed, and the results it was rendered from. -/
structure Pushed (F : Type) where
  results : List (ProbeResult F)
  batch : Batch
  deriving DecidableEq

/-- The arguments of `run_batcher` and `run_writer` that their behaviour depends on. -/
structure PipelineArgs where
  batchSize : ℕ
  initialBackoff : Duration
  maxBackoff : Duration
  deriving DecidableEq, Repr

/-- The two tasks and the queue between them. -/
structure Pipeline (F : Type) where
  sys : QueueSys
  buffer : List (ProbeResult F)
  batcher : BatcherPc
  writer : WriterPc
  -- the history
  received : List (ProbeResult F)
  pushed : List (Pushed F)
  evicted : List Batch
  finals : List (Batch × Verdict)
  deriving DecidableEq

/-- The steps of the two tasks. -/
inductive PipelineAction (F : Type)
  -- the batcher: an arm of its `select!`, `enqueue` up to the release of the lock, and `close`
  | recv (event : Recv (ProbeResult F))
  | timer
  | enqueue
  | notifyOne
  | close
  | notifyWaiters
  -- the writer calls `wait_for_batch`, takes a step in it, and returns from it
  | call
  | wait
  | ret
  -- `write_lines` returns, and what follows
  | answer (outcome : Except WriteError Unit) (nowUnix : ℕ)
  | pop
  -- the backoff ends, by its timer or by `shutdown_rx.recv()`
  | sleep
  | shutdown
  deriving DecidableEq

namespace Pipeline

variable {F : Type} [F64 F]

/-- Both tasks at their start, with a new queue between them. -/
def new (capacityBytes : ℕ) : Pipeline F where
  sys := .new capacityBytes .default
  buffer := []
  batcher := .select
  writer := .waiting
  received := []
  pushed := []
  evicted := []
  finals := []

/-- The batch that `enqueue` renders. Each is an allocation of its own. -/
def nextBatch (s : Pipeline F) : Batch := ⟨s.pushed.length, batchText s.buffer⟩

/-- What the batcher does when `rx.recv()` completes. -/
def recvStep (args : PipelineArgs) (s : Pipeline F) : Recv (ProbeResult F) → Pipeline F
  | .ok result =>
    let buffer := s.buffer ++ [result]
    { s with
      buffer := buffer
      received := s.received ++ [result]
      batcher := if buffer.length ≥ args.batchSize then .enqueue false else .select }
  | .lagged _ => s
  | .closed => { s with batcher := .enqueue true }

/-- Where the batcher goes on after `enqueue`. -/
def afterEnqueue (last : Bool) : BatcherPc := if last then .close else .select

/-- `enqueue`, up to the release of the lock in `push`. Nothing but the batcher sees its buffer, so
clearing it belongs to the same step. -/
def enqueueStep (s : Pipeline F) (last : Bool) : Option (Pipeline F) :=
  if s.buffer = [] then some { s with batcher := afterEnqueue last }
  else
    (s.sys.step (.push s.nextBatch)).map fun sys =>
      { s with
        sys := sys
        buffer := []
        batcher := afterEnqueue last
        pushed := s.pushed ++ [⟨s.buffer, s.nextBatch⟩]
        evicted := s.evicted ++ s.sys.queue.evictedBy s.nextBatch }

/-- Change the counters. -/
def withStats (s : Pipeline F) (f : WriteStats → WriteStats) : Pipeline F :=
  { s with sys := { s.sys with queue := { s.sys.queue with stats := f s.sys.queue.stats } } }

/-- What the writer does with the result of `write_lines`. -/
def answerStep (args : PipelineArgs) (s : Pipeline F) (batch : Batch) (attempt : UInt32)
    (nowUnix : ℕ) : Except WriteError Unit → Pipeline F
  | .ok () =>
    { s.withStats (·.recordWritten batch.len nowUnix) with
      writer := .answered batch
      finals := s.finals ++ [(batch, .accepted)] }
  | .error e =>
    if e.isRetryable then
      let delay := retryDelay args.initialBackoff args.maxBackoff e attempt
      { s with writer := .backoff batch (saturatingSucc attempt) delay }
    else
      { s.withStats (·.recordRejected) with
        writer := .answered batch
        finals := s.finals ++ [(batch, .rejected)] }

/-- One step of either task; `none` where neither stands at this step. -/
def step (args : PipelineArgs) (s : Pipeline F) : PipelineAction F → Option (Pipeline F)
  | .recv event =>
    if s.batcher = .select ∧ s.sys.producer = .idle then some (s.recvStep args event) else none
  | .timer =>
    if s.batcher = .select ∧ s.sys.producer = .idle then some { s with batcher := .enqueue false }
    else none
  | .enqueue =>
    match s.batcher with
    | .enqueue last => s.enqueueStep last
    | .select | .close | .exited => none
  | .notifyOne => (s.sys.step .notifyOne).map fun sys => { s with sys := sys }
  | .close =>
    if s.batcher = .close then
      (s.sys.step .storeClosed).map fun sys => { s with sys := sys, batcher := .exited }
    else none
  | .notifyWaiters => (s.sys.step .notifyWaiters).map fun sys => { s with sys := sys }
  | .call =>
    if s.writer = .waiting then (s.sys.step .call).map fun sys => { s with sys := sys } else none
  | .wait =>
    if s.writer = .waiting then (s.sys.step .wait).map fun sys => { s with sys := sys } else none
  | .ret =>
    match s.writer, s.sys.wait with
    | .waiting, .done (some batch) =>
      (s.sys.step .ret).map fun sys => { s with sys := sys, writer := .writing batch 0 }
    | .waiting, .done none =>
      (s.sys.step .ret).map fun sys => { s with sys := sys, writer := .returned }
    | _, _ => none
  | .answer outcome nowUnix =>
    match s.writer with
    | .writing batch attempt => some (s.answerStep args batch attempt nowUnix outcome)
    | _ => none
  | .pop =>
    match s.writer with
    | .answered batch =>
      (s.sys.step (.pop batch)).map fun sys => { s with sys := sys, writer := .waiting }
    | _ => none
  | .sleep =>
    match s.writer with
    | .backoff batch attempt _ => some { s with writer := .writing batch attempt }
    | _ => none
  | .shutdown =>
    match s.writer with
    | .backoff _ _ _ => some { s with writer := .returned }
    | _ => none

/-! ### What became of a batch -/

/-- The batches that have a final answer, by number, in the order of the answers. -/
def answered (s : Pipeline F) : List ℕ := s.finals.map fun f => f.1.ptr

/-- The final answers about batch `i`. -/
def verdicts (s : Pipeline F) (i : ℕ) : List Verdict :=
  (s.finals.filter fun f => f.1.ptr = i).map Prod.snd

/-- What became of batch `i`: it is still queued; it was evicted and has no final answer; it was
accepted once; it was permanently rejected once. -/
def HasFate (s : Pipeline F) (i : ℕ) : Ledger.Fate → Prop
  | .queued => ∃ b ∈ s.sys.queue.inner.batches, b.ptr = i
  | .evicted => (∃ b ∈ s.evicted, b.ptr = i) ∧ s.verdicts i = []
  | .accepted => s.verdicts i = [.accepted]
  | .rejected => s.verdicts i = [.rejected]

/-- The writer is between an answer and its `pop_if_front`. -/
def BetweenAnswerAndPop (s : Pipeline F) : Prop := ∃ batch, s.writer = .answered batch

/-- A result of `write_lines` that is a final answer. -/
def isFinal : Except WriteError Unit → Bool
  | .ok () => true
  | .error e => !e.isRetryable

/-- The condition under which every batch is counted once: a final answer is about a batch that is
still queued, and no push evicts a batch between its answer and its `pop_if_front`. -/
def CountsOnce (s : Pipeline F) (a : PipelineAction F) : Prop :=
  (∀ batch attempt outcome now, s.writer = .writing batch attempt → a = .answer outcome now →
    isFinal outcome = true → ∃ b ∈ s.sys.queue.inner.batches, b.ptr = batch.ptr) ∧
  (∀ batch last, s.writer = .answered batch → s.batcher = .enqueue last → a = .enqueue →
    s.buffer ≠ [] → ∀ b ∈ s.sys.queue.evictedBy s.nextBatch, b.ptr ≠ batch.ptr)

/-- Everything is drained: the batcher has queued its last batch and closed the queue, the queue is
empty, and every result received is in a batch that was accepted, permanently rejected, or counted
as evicted. -/
structure Drained (s : Pipeline F) : Prop where
  exited : s.batcher = .exited
  buffer : s.buffer = []
  closed : s.sys.queue.closed = true
  empty : s.sys.queue.inner.batches = []
  received : s.pushed.flatMap Pushed.results = s.received
  fates : ∀ p ∈ s.pushed, s.HasFate p.batch.ptr .accepted ∨ s.HasFate p.batch.ptr .rejected ∨
    s.HasFate p.batch.ptr .evicted
  counted : s.sys.queue.stats.droppedBatches = s.evicted.length

/-- The condition under which the writer returns with everything drained: it does not leave a
backoff for the shutdown signal, and `close` does not slip between its peek and its load of the flag
with a batch queued. -/
def LeavesNothing (s : Pipeline F) (a : PipelineAction F) : Prop :=
  a ≠ .shutdown ∧ (a = .close → s.sys.BeforeLoad → s.sys.queue.inner.batches = [])

end Pipeline

end Huginn.Influx
