import Huginn.Core.Stats
import Huginn.Lib.Notify
import Mathlib.Data.String.Basic

/-!
# The retry queue

`RetryQueue`, the bounded queue of rendered batches between the batcher and the writer.

A batch is an `Arc<str>`: its text, and the identity of its allocation, which is what `Arc::ptr_eq`
compares. The body of `push` under the lock and its `notify_one` after it are two steps for anyone
else, so they are two functions here (`pushLocked` and `notifyOne`); so are the two halves of
`close`.
-/

namespace Huginn.Influx

/-- `Arc<str>`: which allocation it is, and a batch of line protocol, ready to POST. -/
structure Batch where
  ptr : ℕ
  text : String
  deriving DecidableEq, Repr

/-- `batch.len()`: the length in bytes. -/
def Batch.len (b : Batch) : ℕ := b.text.utf8ByteSize

/-- `Arc::ptr_eq`. -/
def Batch.ptrEq (a b : Batch) : Bool := a.ptr == b.ptr

/-- What the mutex guards, and whether some `bytes -= …` so far had less to subtract from than it
subtracted. -/
structure Inner where
  batches : List Batch
  bytes : ℕ
  underflow : Bool
  deriving DecidableEq, Repr

/-- `inner.bytes -= len`. -/
def Inner.subBytes (inner : Inner) (len : ℕ) : Inner :=
  { inner with
    bytes := inner.bytes - len
    underflow := inner.underflow || decide (inner.bytes < len) }

/-- The bounded queue with drop-oldest eviction. -/
structure RetryQueue where
  inner : Inner
  capacityBytes : ℕ
  notify : Notify
  closed : Bool
  stats : WriteStats
  deriving DecidableEq, Repr

namespace RetryQueue

/-- `RetryQueue::new`. -/
def new (capacityBytes : ℕ) (stats : WriteStats) : RetryQueue where
  inner := ⟨[], 0, false⟩
  capacityBytes := capacityBytes
  notify := .new
  closed := false
  stats := stats

/-- The `while` loop of `push`: pop the front for as long as the new batch does not fit. -/
def evictLoop (capacityBytes len : ℕ) : List Batch → ℕ → Bool → WriteStats → Inner × WriteStats
  | [], bytes, underflow, stats => (⟨[], bytes, underflow⟩, stats)
  | old :: batches, bytes, underflow, stats =>
    if bytes + len > capacityBytes then
      let inner := Inner.subBytes ⟨batches, bytes, underflow⟩ old.len
      evictLoop capacityBytes len batches inner.bytes inner.underflow (stats.recordEviction old.len)
    else (⟨old :: batches, bytes, underflow⟩, stats)

/-- `push`, up to the release of the lock. -/
def pushLocked (q : RetryQueue) (batch : Batch) : RetryQueue :=
  let len := batch.len
  let (inner, stats) :=
    evictLoop q.capacityBytes len q.inner.batches q.inner.bytes q.inner.underflow q.stats
  let inner := { inner with bytes := inner.bytes + len, batches := inner.batches ++ [batch] }
  { q with inner := inner, stats := stats.setQueueDepth inner.batches.length inner.bytes }

/-- `self.notify.notify_one()`. -/
def notifyOne (q : RetryQueue) : RetryQueue := { q with notify := q.notify.notifyOne }

/-- `RetryQueue::push`. -/
def push (q : RetryQueue) (batch : Batch) : RetryQueue := (q.pushLocked batch).notifyOne

/-- `RetryQueue::peek`. -/
def peek (q : RetryQueue) : Option Batch := q.inner.batches.head?

/-- `RetryQueue::len`. -/
def len (q : RetryQueue) : ℕ := q.inner.batches.length

/-- `RetryQueue::pop_if_front`. -/
def popIfFront (q : RetryQueue) (written : Batch) : RetryQueue × Bool :=
  match q.inner.batches with
  | front :: batches =>
    if front.ptrEq written then
      let inner := Inner.subBytes { q.inner with batches := batches } front.len
      ({ q with inner := inner, stats := q.stats.setQueueDepth inner.batches.length inner.bytes },
        true)
    else (q, false)
  | [] => (q, false)

/-- `self.closed.store(true)`, the first half of `close`. -/
def storeClosed (q : RetryQueue) : RetryQueue := { q with closed := true }

/-- `self.notify.notify_waiters()`, the second half of `close`. -/
def notifyWaiters (q : RetryQueue) : RetryQueue := { q with notify := q.notify.notifyWaiters }

/-- `RetryQueue::close`. -/
def close (q : RetryQueue) : RetryQueue := q.storeClosed.notifyWaiters

/-! ### Sequences of calls -/

/-- One call on the queue. -/
inductive Op
  | push (batch : Batch)
  | peek
  | popIfFront (written : Batch)
  deriving DecidableEq, Repr

/-- The queue after one call. -/
def apply (q : RetryQueue) : Op → RetryQueue
  | .push batch => q.push batch
  | .peek => q
  | .popIfFront written => (q.popIfFront written).1

/-- The queue after a sequence of calls. -/
def run (q : RetryQueue) (ops : List Op) : RetryQueue := ops.foldl apply q

/-- The batches pushed by a sequence of calls, in order. -/
def pushHistory (ops : List Op) : List Batch :=
  ops.filterMap fun
    | .push batch => some batch
    | .peek | .popIfFront _ => none

/-- The batches that leave the queue `q` when `batch` is pushed: those of the old contents that are
not among the new. -/
def evictedBy (q : RetryQueue) (batch : Batch) : List Batch :=
  q.inner.batches.take (q.inner.batches.length + 1 - (q.pushLocked batch).inner.batches.length)

/-- The batches that one call evicts. -/
def evictedByOp (q : RetryQueue) : Op → List Batch
  | .push batch => q.evictedBy batch
  | .peek | .popIfFront _ => []

/-- The batches evicted along a sequence of calls, in order. -/
def evictions (q : RetryQueue) : List Op → List Batch
  | [] => []
  | op :: ops => q.evictedByOp op ++ evictions (q.apply op) ops

end RetryQueue

end Huginn.Influx
