import Huginn.Influx.Pipeline
import Huginn.Lib.Scan
import Huginn.Web.Prometheus

/-!
# A scrape while results are written

`render_write_path` loads the counters one after the other, and nothing keeps the batcher and the
writer from changing them in the meantime. What one step of these changes is changed at once here,
as it is in `Pipeline`: a scraper does not see the counts between the evictions of one push, nor
between the counters of one answer.
-/

namespace Huginn

/-- The counters. -/
inductive Counter
  | queueBatches
  | queueBytes
  | writtenBatches
  | writtenBytes
  | droppedBatches
  | droppedBytes
  | rejectedBatches
  | lastWriteSuccessUnix
  deriving DecidableEq, Repr

namespace Counter

/-- The order in which they are loaded. -/
def order : List Counter :=
  [queueBatches, queueBytes, writtenBatches, writtenBytes, droppedBatches, droppedBytes,
    rejectedBatches, lastWriteSuccessUnix]

def load (stats : WriteStats) : Counter → ℕ
  | queueBatches => stats.queueBatches
  | queueBytes => stats.queueBytes
  | writtenBatches => stats.writtenBatches
  | writtenBytes => stats.writtenBytes
  | droppedBatches => stats.droppedBatches
  | droppedBytes => stats.droppedBytes
  | rejectedBatches => stats.rejectedBatches
  | lastWriteSuccessUnix => stats.lastWriteSuccessUnix

/-- The family that shows it. -/
def family : Counter → String
  | queueBatches => "huginn_influx_queue_batches"
  | queueBytes => "huginn_influx_queue_bytes"
  | writtenBatches => "huginn_influx_batches_written_total"
  | writtenBytes => "huginn_influx_bytes_written_total"
  | droppedBatches => "huginn_influx_batches_dropped_total"
  | droppedBytes => "huginn_influx_bytes_dropped_total"
  | rejectedBatches => "huginn_influx_batches_rejected_total"
  | lastWriteSuccessUnix => "huginn_influx_last_write_success_timestamp_seconds"

/-- Whether the family is announced as a `counter`. -/
def isTotal : Counter → Bool
  | writtenBatches | writtenBytes | droppedBatches | droppedBytes | rejectedBatches => true
  | queueBatches | queueBytes | lastWriteSuccessUnix => false

end Counter

/-- What `render_write_path` is given, as far as it can tell. -/
def WriteStats.ofLoads (loads : List (Counter × ℕ)) : WriteStats :=
  let value := fun c => (loads.lookup c).getD 0
  ⟨value .queueBatches, value .queueBytes, value .droppedBatches, value .droppedBytes,
    value .rejectedBatches, value .writtenBatches, value .writtenBytes,
    value .lastWriteSuccessUnix⟩

namespace Main

open Influx

variable {F : Type} [F64 F]

/-- The two tasks, and a scraper that comes again and again. -/
abbrev Scraped (F : Type) : Type := Scanner (Pipeline F) Counter ℕ

namespace Scraped

def new (capacityBytes : ℕ) : Scraped F := Scanner.new (.new capacityBytes)

def step (args : PipelineArgs) : Scraped F → ScanAction (PipelineAction F) → Option (Scraped F) :=
  Scanner.step Counter.order (fun s => Counter.load s.sys.queue.stats) (Pipeline.step args)

end Scraped

end Main

end Huginn
