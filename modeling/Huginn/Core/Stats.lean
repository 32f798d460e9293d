import Mathlib.Data.Nat.Notation

/-!
# Counters for the InfluxDB write path

`WriteStats`. The atomic counters are exact integers here, like the lengths that are added to them;
each is changed by one indivisible operation at a time.

The counters of the source are `u64`, and `fetch_add` wraps. Here they are not bounded, so what is
said of a counter is about the source for as long as it stays below 2^64: for fewer than 2^64
batches, and fewer than 2^64 bytes in them, since the start.
-/

namespace Huginn

/-- Write-path counters, shared between the queue, the writer and the exposition endpoint. Each is
an `AtomicU64`, and below 2^64 for as long as this is faithful. -/
structure WriteStats where
  queueBatches : ℕ
  queueBytes : ℕ
  droppedBatches : ℕ
  droppedBytes : ℕ
  rejectedBatches : ℕ
  writtenBatches : ℕ
  writtenBytes : ℕ
  lastWriteSuccessUnix : ℕ
  deriving DecidableEq, Repr

namespace WriteStats

/-- `WriteStats::default()`: every counter starts at zero. -/
def default : WriteStats := ⟨0, 0, 0, 0, 0, 0, 0, 0⟩

/-- Overwrite the queue depth. -/
def setQueueDepth (s : WriteStats) (batches bytes : ℕ) : WriteStats :=
  { s with queueBatches := batches, queueBytes := bytes }

/-- One batch evicted because the queue was full. -/
def recordEviction (s : WriteStats) (bytes : ℕ) : WriteStats :=
  { s with droppedBatches := s.droppedBatches + 1, droppedBytes := s.droppedBytes + bytes }

/-- One batch discarded because InfluxDB will never accept it. -/
def recordRejected (s : WriteStats) : WriteStats :=
  { s with rejectedBatches := s.rejectedBatches + 1 }

/-- One batch accepted by InfluxDB. -/
def recordWritten (s : WriteStats) (bytes atUnix : ℕ) : WriteStats :=
  { s with
    writtenBatches := s.writtenBatches + 1
    writtenBytes := s.writtenBytes + bytes
    lastWriteSuccessUnix := atUnix }

end WriteStats

end Huginn
