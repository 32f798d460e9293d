import Huginn.Influx.Pipeline

/-!
# The process

`run` of the binary, with the tasks that it starts: the signal task of `main`, the probe loops of
the scheduler, and the batcher and the writer. They share the shutdown channel and the hub, and a
run of `Process.step` is an interleaving of their steps with an environment that decides when the
operating system asks the process to stop, what each probe gives, what each write comes to, and
which deadlines pass.

The console, web and health tasks only listen, and are left out. So is everything after `run` has
returned: the runtime is gone with the tasks that are left.
-/

namespace Huginn.Main

open Influx

variable {F : Type} [F64 F]

/-- The task that waits for the signal of the operating system. Once it has sent the signal on it
still holds its sender, until it has finished. -/
inductive SignalPc
  | waiting
  | sent
  | finished
  deriving DecidableEq, Repr

/-- Where a probe loop stands: at the first `select!`, for the ticker or the shutdown signal, or at
the second, for the probe or the shutdown signal. -/
inductive LoopPc
  | waiting
  | probing
  | stopped
  deriving DecidableEq, Repr

/-- `run_probe_loop`, with the position of its receiver in the shutdown channel. -/
structure ProbeLoop where
  pc : LoopPc
  shutdownRx : ℕ
  aborted : Bool
  deriving DecidableEq, Repr

/-- How `run` ends, by what it logs last. -/
inductive Outcome
  | startupFailed
  -- "InfluxDB writer drained cleanly"
  | drainedCleanly
  -- "shutdown drain timed out after probes had to be aborted"
  | timedOutAfterAbort
  -- "InfluxDB unreachable at shutdown"
  | unreachable
  deriving DecidableEq, Repr

/-- Where `run` stands: what its next step is. -/
inductive MainPc
  -- each of the two tasks is spawned with a receiver that was subscribed before
  | spawnBatcher
  | spawnWriter
  | subscribe
  -- in `scheduler::run`, and then in `shutdown_rx.recv()`
  | scheduling (shutdownRx : ℕ)
  | waiting (shutdownRx : ℕ)
  -- the stages of the shutdown: `stop_probes` with so many loops joined, the hub, the writer
  | stopping (joined : ℕ)
  | dropHub (probesStopped : Bool)
  | draining (probesStopped : Bool)
  | finished (outcome : Outcome)
  deriving DecidableEq, Repr

/-- What the configuration says, as far as the steps depend on it: also how many probes there are,
and how many events the hub keeps, which is `event_hub_capacity` rounded up to a power of two. -/
structure ProcessArgs where
  pipeline : PipelineArgs
  maxBufferedBytes : ℕ
  probes : ℕ
  hubCapacity : ℕ
  deriving DecidableEq, Repr

/-- The tasks and the channels that they share. The senders of the hub are the holders of an
`Arc<EventHub>`, but for the clones that startup drops at once. The batcher and the writer have a
receiver once they are spawned. -/
structure Process (F : Type) where
  main : MainPc
  signal : SignalPc
  loops : List ProbeLoop
  shutdown : Broadcast Unit
  hub : Broadcast (ProbeResult F)
  batcherRx : Option ℕ
  writerRx : Option ℕ
  pipeline : Pipeline F

/-- The steps of the tasks. -/
inductive ProcessAction (F : Type)
  -- the operating system asks the process to stop, and the signal task sends that on; then it ends
  | signal
  | signalExit
  -- `run`, up to the end of `scheduler::run`
  | start
  | startFails
  -- `shutdown_rx.recv()` of `run` completes
  | wake
  -- `stop_probes` joins the next loop, or is through with all of them, or its grace period ends
  | join
  | graceOver
  | dropHub
  -- the writer is joined within the drain timeout, or not
  | drained
  | drainOver
  -- probe loop `i`: its ticker ticks, its probe is over and the result is published, it sees the
  -- shutdown signal and returns, or it was aborted and is dropped
  | tick (i : ℕ)
  | publish (i : ℕ) (result : ProbeResult F)
  | stop (i : ℕ)
  | cancel (i : ℕ)
  -- the batcher receives from the hub, the writer sees the shutdown signal in a backoff, or either
  -- takes any other step
  | recv
  | abandon
  | pipeline (a : PipelineAction F)
  deriving DecidableEq

namespace Process

/-- At the beginning of `run`, with the signal task spawned. There are two senders of the shutdown
channel, that task's and the one given to `run`, and one `Arc<EventHub>`. -/
def new (args : ProcessArgs) : Process F where
  main := .spawnBatcher
  signal := .waiting
  loops := []
  shutdown := ⟨1, [], 2⟩
  hub := ⟨args.hubCapacity, [], 1⟩
  batcherRx := none
  writerRx := none
  pipeline := .new args.maxBufferedBytes

/-- Whether a `recv` on the shutdown channel completes: with the signal, having missed it, or
because every sender is gone. -/
def sees (s : Process F) (shutdownRx : ℕ) : Bool := (s.shutdown.recv shutdownRx).isSome

/-- A step of `run` before it waits. -/
def startStep (args : ProcessArgs) (s : Process F) : Option (Process F) :=
  match s.main with
  | .spawnBatcher => some { s with batcherRx := some s.hub.subscribe, main := .spawnWriter }
  | .spawnWriter => some { s with writerRx := some s.shutdown.subscribe, main := .subscribe }
  | .subscribe => some { s with main := .scheduling s.shutdown.subscribe }
  | .scheduling rx =>
    if s.loops.length < args.probes then
      some { s with
        loops := s.loops ++ [⟨.waiting, s.shutdown.subscribe, false⟩]
        hub := s.hub.addSender }
    else
      -- `scheduler::run` was given the sender, and drops it when it returns
      some { s with shutdown := s.shutdown.dropSender, main := .waiting rx }
  | .waiting _ | .stopping _ | .dropHub _ | .draining _ | .finished _ => none

/-- A startup step may fail instead: a listener that cannot be bound, a secret that cannot be read.
-/
def startFails (s : Process F) : Option (Process F) :=
  match s.main with
  | .spawnBatcher | .spawnWriter | .subscribe =>
    some { s with main := .finished .startupFailed }
  | .scheduling _ | .waiting _ | .stopping _ | .dropHub _ | .draining _ | .finished _ => none

/-- The stages of the shutdown. -/
def shutdownStep (s : Process F) (a : ProcessAction F) : Option (Process F) :=
  match s.main, a with
  | .waiting rx, .wake => if s.sees rx then some { s with main := .stopping 0 } else none
  | .stopping joined, .join =>
    match s.loops[joined]? with
    | none => some { s with main := .dropHub true }
    | some l => if l.pc = .stopped then some { s with main := .stopping (joined + 1) } else none
  | .stopping joined, .graceOver =>
    if joined < s.loops.length then
      some { s with
        loops := s.loops.map fun l => { l with aborted := true }
        main := .dropHub false }
    else none
  | .dropHub stopped, .dropHub =>
    some { s with hub := s.hub.dropSender, main := .draining stopped }
  -- `JoinHandle` completes with the task, for whatever reason the writer returned
  | .draining _, .drained =>
    if s.pipeline.writer = .returned then some { s with main := .finished .drainedCleanly }
    else none
  | .draining stopped, .drainOver =>
    some { s with main := .finished (if stopped then .unreachable else .timedOutAfterAbort) }
  | _, _ => none

/-- A step of loop `i`. A loop that returns or is dropped drops its `Arc<EventHub>`. -/
def loopStep (s : Process F) (i : ℕ) (a : ProcessAction F) : Option (Process F) := do
  let l ← s.loops[i]?
  match l.pc, a with
  | .waiting, .tick _ => some { s with loops := s.loops.set i { l with pc := .probing } }
  | .probing, .publish _ result =>
    some { s with
      loops := s.loops.set i { l with pc := .waiting }
      hub := s.hub.send result }
  | .waiting, .stop _ | .probing, .stop _ =>
    if s.sees l.shutdownRx then
      some { s with
        loops := s.loops.set i { l with pc := .stopped }
        hub := s.hub.dropSender }
    else none
  | .waiting, .cancel _ | .probing, .cancel _ =>
    if l.aborted then
      some { s with
        loops := s.loops.set i { l with pc := .stopped }
        hub := s.hub.dropSender }
    else none
  | _, _ => none

/-- A step of the batcher or the writer that does not touch the channels, once the task is spawned.
-/
def pipelineStep (args : ProcessArgs) (s : Process F) (a : PipelineAction F) : Option (Process F) :=
  match a with
  | .recv _ | .shutdown => none
  | .timer | .enqueue | .notifyOne | .close | .notifyWaiters =>
    if s.batcherRx = none then none
    else (s.pipeline.step args.pipeline a).map fun p => { s with pipeline := p }
  | .call | .wait | .ret | .answer _ _ | .pop | .sleep =>
    if s.writerRx = none then none
    else (s.pipeline.step args.pipeline a).map fun p => { s with pipeline := p }

/-- One step of the tasks. -/
def taskStep (args : ProcessArgs) (s : Process F) (a : ProcessAction F) : Option (Process F) :=
  match a with
  | .signal =>
    if s.signal = .waiting then some { s with shutdown := s.shutdown.send (), signal := .sent }
    else none
  | .signalExit =>
    if s.signal = .sent then some { s with shutdown := s.shutdown.dropSender, signal := .finished }
    else none
  | .start => s.startStep args
  | .startFails => s.startFails
  | .wake | .join | .graceOver | .dropHub | .drained | .drainOver => s.shutdownStep a
  | .tick i | .publish i _ | .stop i | .cancel i => s.loopStep i a
  | .recv => do
    -- what the batcher receives is what the hub has for it
    let rx ← s.batcherRx
    let (event, rx) ← s.hub.recv rx
    let p ← s.pipeline.step args.pipeline (.recv event)
    some { s with pipeline := p, batcherRx := some rx }
  | .abandon => do
    let rx ← s.writerRx
    if s.sees rx then
      (s.pipeline.step args.pipeline .shutdown).map fun p => { s with pipeline := p }
    else none
  | .pipeline a => s.pipelineStep args a

/-- One step of the process, for as long as `run` has not returned. -/
def step (args : ProcessArgs) (s : Process F) (a : ProcessAction F) : Option (Process F) :=
  match s.main with
  | .finished _ => none
  | _ => s.taskStep args a

/-- The condition under which a shutdown that is reported as clean is one: the writer does not leave
a backoff for the shutdown signal, and `close` does not slip between its peek and its load of the
flag with a batch queued. -/
def LeavesNothing (s : Process F) (a : ProcessAction F) : Prop :=
  a ≠ .abandon ∧
    (a = .pipeline .close → s.pipeline.sys.BeforeLoad → s.pipeline.sys.queue.inner.batches = [])

end Process

end Huginn.Main
