import Huginn.Influx.Queue
import Huginn.Lib.Run

/-!
# The queue between two tasks

`wait_for_batch`, cut at its shared steps (each locked peek, each load of `closed`, the creation of
the `Notified` future, its first poll), next to the calls of the batcher, `push` and `close`, cut at
theirs. `QueueSys` is the queue with the place where each of the two tasks stands; a run of
`QueueSys.step` is an interleaving of the two.
-/

namespace Huginn.Influx

/-- Where the batcher stands in its calls on the queue: between two calls, in `push` after the
release of the lock, in `close` after the store of the flag, or past `close`. -/
inductive ProducerPc
  | idle
  | notifyOne
  | notifyWaiters
  | closed
  deriving DecidableEq, Repr

/-- Where the writer stands in `wait_for_batch`: what its next step is, whether it is asleep at
`notified.await` (`suspended`), and what it is about to return (`done`). -/
inductive WaitPc
  | idle
  | peek
  | load
  | register
  | recheck (notified : Notified)
  | reload (notified : Notified)
  | poll (notified : Notified)
  | suspended
  | done (batch : Option Batch)
  deriving DecidableEq, Repr

/-- The queue and the two tasks that share it. -/
structure QueueSys where
  queue : RetryQueue
  producer : ProducerPc
  wait : WaitPc
  deriving DecidableEq, Repr

/-- The shared steps of the two tasks. -/
inductive QueueAction
  -- the halves of `push` and of `close`
  | push (batch : Batch)
  | notifyOne
  | storeClosed
  | notifyWaiters
  -- the call, the next step and the return of `wait_for_batch`, and `pop_if_front`
  | call
  | wait
  | ret
  | pop (written : Batch)
  deriving DecidableEq, Repr

namespace QueueSys

/-- A new queue, with both tasks outside of any call. -/
def new (capacityBytes : ℕ) (stats : WriteStats) : QueueSys :=
  ⟨.new capacityBytes stats, .idle, .idle⟩

/-- The next step of `wait_for_batch`; `none` outside of the call, and for as long as the writer is
asleep. -/
def waitStep (s : QueueSys) : Option QueueSys :=
  match s.wait with
  | .idle | .done _ => none
  | .peek =>
    match s.queue.peek with
    | some b => some { s with wait := .done (some b) }
    | none => some { s with wait := .load }
  | .load =>
    if s.queue.closed then some { s with wait := .done none } else some { s with wait := .register }
  -- the future exists from here on, but is not in the waiter slot before its first poll
  | .register => some { s with wait := .recheck s.queue.notify.notified }
  | .recheck notified =>
    match s.queue.peek with
    | some b => some { s with wait := .done (some b) }
    | none => some { s with wait := .reload notified }
  | .reload notified =>
    if s.queue.closed then some { s with wait := .done none }
    else some { s with wait := .poll notified }
  | .poll notified =>
    let (notify, ready) := s.queue.notify.poll notified
    some { s with
      queue := { s.queue with notify := notify }
      wait := if ready then .peek else .suspended }
  | .suspended =>
    s.queue.notify.resume.map fun notify =>
      { s with queue := { s.queue with notify := notify }, wait := .peek }

/-- One step of either task. The batcher makes its calls one after the other, and `close` is its
last; the writer pops only outside of `wait_for_batch`. -/
def step (s : QueueSys) : QueueAction → Option QueueSys
  | .push batch =>
    if s.producer = .idle then
      some { s with queue := s.queue.pushLocked batch, producer := .notifyOne }
    else none
  | .notifyOne =>
    if s.producer = .notifyOne then
      some { s with queue := s.queue.notifyOne, producer := .idle }
    else none
  | .storeClosed =>
    if s.producer = .idle then
      some { s with queue := s.queue.storeClosed, producer := .notifyWaiters }
    else none
  | .notifyWaiters =>
    if s.producer = .notifyWaiters then
      some { s with queue := s.queue.notifyWaiters, producer := .closed }
    else none
  | .call => if s.wait = .idle then some { s with wait := .peek } else none
  | .wait => s.waitStep
  | .ret =>
    match s.wait with
    | .done _ => some { s with wait := .idle }
    | _ => none
  | .pop written =>
    if s.wait = .idle then some { s with queue := (s.queue.popIfFront written).1 } else none

/-- The writer has seen the queue empty, and whether it is closed is the next thing it looks at. -/
def BeforeLoad (s : QueueSys) : Prop :=
  match s.wait with
  | .load | .reload _ => True
  | _ => False

instance (s : QueueSys) : Decidable s.BeforeLoad :=
  match h : s.wait with
  | .load | .reload _ => .isTrue (by simp [BeforeLoad, h])
  | .idle | .peek | .register | .recheck _ | .poll _ | .suspended | .done _ =>
    .isFalse (by simp [BeforeLoad, h])

/-- The condition on steps under which `wait_for_batch` keeps its promise: when the flag is stored
while the writer stands between an empty peek and its load of the flag, nothing has been pushed in
between. -/
def CloseSeesEmpty (s : QueueSys) (a : QueueAction) : Prop :=
  a = .storeClosed → s.BeforeLoad → s.queue.inner.batches = []

instance (s : QueueSys) (a : QueueAction) : Decidable (s.CloseSeesEmpty a) :=
  inferInstanceAs (Decidable (a = .storeClosed → s.BeforeLoad → s.queue.inner.batches = []))

end QueueSys

end Huginn.Influx
