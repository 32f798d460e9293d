import Huginn.Main.Process

/-!
# The process and the clock

The process with the two timers of its shutdown: the one deadline that `stop_probes` gives to all
the probe loops together, and the one that `run` gives to the writer. A step of `Clocked.step` is a
step of the process that the timers allow, or time passes.

Times are in milliseconds.
-/

namespace Huginn.Main

open Influx

variable {F : Type} [F64 F]

/-- `PROBE_STOP_GRACE`. -/
def PROBE_STOP_GRACE : ℕ := 2000

/-- What the configuration says: also `shutdown_drain_timeout_ms`. -/
structure ClockedArgs where
  process : ProcessArgs
  drainMs : ℕ
  deriving DecidableEq, Repr

/-- The process, what time it is, and when the two timers were started. -/
structure Clocked (F : Type) where
  process : Process F
  clock : ℕ
  wokenAt : Option ℕ
  drainingSince : Option ℕ

inductive ClockedAction (F : Type)
  | pass (now : ℕ)
  | act (a : ProcessAction F)

namespace Clocked

def new (args : ClockedArgs) : Clocked F := ⟨.new args.process, 0, none, none⟩

/-- The loop that `stop_probes` waits for has returned, or there is none left. -/
def joinable (s : Clocked F) (joined : ℕ) : Bool :=
  match s.process.loops[joined]? with
  | some l => l.pc == .stopped
  | none => true

/-- What a timer has to say about a step. `timeout_at` and `timeout` look at the task before they
look at the clock. -/
def allows (args : ClockedArgs) (s : Clocked F) (a : ProcessAction F) : Bool :=
  match a, s.process.main with
  | .graceOver, .stopping joined =>
    s.wokenAt.any (· + PROBE_STOP_GRACE ≤ s.clock) && !s.joinable joined
  | .drainOver, .draining _ =>
    s.drainingSince.any (· + args.drainMs ≤ s.clock) && s.process.pipeline.writer != .returned
  | _, _ => true

/-- The timers that a step starts. -/
def startTimers (s : Clocked F) (a : ProcessAction F) : Clocked F :=
  match a with
  | .wake => { s with wokenAt := some s.clock }
  | .dropHub => { s with drainingSince := some s.clock }
  | _ => s

def step (args : ClockedArgs) (s : Clocked F) : ClockedAction F → Option (Clocked F)
  | .pass now =>
    match s.process.main with
    | .finished _ => none
    | _ => if s.clock ≤ now then some { s with clock := now } else none
  | .act a =>
    if s.allows args a then
      (s.process.step args.process a).map fun p => { s.startTimers a with process := p }
    else none

/-- Until when `run` has nothing to do in its shutdown: it goes on at once where it can, and waits
for a timer where it cannot. -/
def idleUntil (args : ClockedArgs) (s : Clocked F) : Option ℕ :=
  match s.process.main with
  | .stopping joined =>
    if s.joinable joined then some s.clock else s.wokenAt.map (· + PROBE_STOP_GRACE)
  | .dropHub _ => some s.clock
  | .draining _ =>
    if s.process.pipeline.writer = .returned then some s.clock
    else s.drainingSince.map (· + args.drainMs)
  | .spawnBatcher | .spawnWriter | .subscribe | .scheduling _ | .waiting _ | .finished _ => none

/-- The runtime does not let `run` wait for longer than it has to. This bounds the clock, so it is
to be shown that `run` can always go on then (`run_returns`). -/
def Urgent (args : ClockedArgs) (s : Clocked F) : ClockedAction F → Prop
  | .pass now => ∀ time ∈ s.idleUntil args, now ≤ time
  | .act _ => True

end Clocked

end Huginn.Main
