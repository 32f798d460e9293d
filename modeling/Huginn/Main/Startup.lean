import Huginn.Core.Config
import Huginn.Influx.Writer

/-!
# What takes the numbers of a config

The operations of startup and of the tasks that are given a number of the config, each up to the
point where it could panic on it. A panic is an error here, of which there are as many as there are
operations with a precondition.

Making a channel and an interval is left to the runtime. A `Duration` carries its bound, so whatever
is computed as one has not overflowed. Memory that cannot be had ends the process without a panic,
and is not looked at.
-/

namespace Huginn.Main

open Influx

variable {F : Type}

/-- `usize::MAX`. -/
def USIZE_MAX : ℕ := 2 ^ 64 - 1

/-- `isize::MAX`. -/
def ISIZE_MAX : ℕ := 2 ^ 63 - 1

/-- What a task dies of. -/
inductive Panic
  | channelCapacity
  | zeroPeriod
  | capacityOverflow
  deriving DecidableEq, Repr

/-- `broadcast::channel` and `interval`, which panic on some arguments. -/
structure Runtime where
  broadcastChannel : UInt64 → Except Panic Unit
  interval : Duration → Except Panic Unit

/-- `Vec::with_capacity`, for elements of a size. -/
def vecWithCapacity (elementSize : ℕ) (capacity : UInt64) : Except Panic Unit :=
  if capacity.toNat * elementSize ≤ ISIZE_MAX then .ok () else .error .capacityOverflow

/-- `EventHub::new`. -/
def eventHubNew (rt : Runtime) (capacity : UInt64) : Except Panic Unit :=
  rt.broadcastChannel capacity

/-- The beginning of `run_batcher`: the buffer, and the time after which it is flushed. -/
def startBatcher (resultSize : ℕ) (batchSize batchTimeoutMs : UInt64) : Except Panic Duration := do
  vecWithCapacity resultSize batchSize
  pure (.fromMillis batchTimeoutMs)

/-- The beginning of `run_writer`: the first and the longest delay. -/
def startWriter (initialBackoffMs maxBackoffMs : UInt64) : Except Panic (Duration × Duration) :=
  pure (.fromMillis initialBackoffMs, .fromMillis maxBackoffMs)

/-- The beginning of `run_probe_loop`. -/
def startProbeLoop (rt : Runtime) (cfg : ProbeConfig F) : Except Panic Unit :=
  rt.interval cfg.interval

/-- How long `run` waits for the writer. -/
def drainTimeout (cfg : InfluxConfig) : Except Panic Duration :=
  pure (.fromMillis cfg.shutdownDrainTimeoutMs)

end Huginn.Main
