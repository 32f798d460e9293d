import Huginn.Lib.Interval
import Huginn.Lib.Run
import Huginn.Main.Process
import Huginn.Probes.Executors

/-!
# A probe loop and its clock

`run_probe_loop` of one probe, with the times that `Process` leaves out: when its ticker is due, how
long its probe takes in a world that the environment chooses, and how late the runtime gets to what
is due. Times are in milliseconds since the loop was spawned.

The history fields are never read by a step. They record when the probe was started, and what was
published when.
-/

namespace Huginn.Main

open Probes

variable {F : Type} [F64 F]

/-- Where the loop stands: at the first `select!` since some time, at the second with the probe
started at some time and the world that it runs in, or past its loop. -/
inductive TimedPc (F : Type)
  | waiting (since : ℕ)
  | probing (started : ℕ) (world : World F)
  | stopped

/-- `run_probe_loop`. -/
structure TimedLoop (F : Type) where
  pc : TimedPc F
  ticker : Interval
  clock : ℕ
  -- the history
  starts : List ℕ
  published : List (ℕ × ProbeResult F)

inductive TimedAction (F : Type)
  -- time passes
  | pass (now : ℕ)
  -- the ticker ticks, the probe is over, or the shutdown signal is seen
  | tick (world : World F)
  | publish
  | stop

namespace TimedLoop

/-- The loop at its start. -/
def new (cfg : ProbeConfig F) : TimedLoop F where
  pc := .waiting 0
  ticker := .start cfg.interval.asMillis
  clock := 0
  starts := []
  published := []

/-- When the loop can go on, unless it is told to stop. -/
def due (cfg : ProbeConfig F) (s : TimedLoop F) : Option ℕ :=
  match s.pc with
  | .waiting since => some (max s.ticker.deadline since)
  | .probing started world =>
    match execute world cfg with
    | .ready millis _ => some (started + millis)
    | .never => none
  | .stopped => none

/-- `ticker.tick()`. -/
def tickStep (s : TimedLoop F) (world : World F) : Option (TimedLoop F) :=
  match s.pc with
  | .waiting _ =>
    if s.ticker.Due s.clock then
      some { s with
        pc := .probing s.clock world
        ticker := s.ticker.tick s.clock
        starts := s.starts ++ [s.clock] }
    else none
  | .probing _ _ | .stopped => none

/-- The probe is over, and its result is published. -/
def publishStep (cfg : ProbeConfig F) (s : TimedLoop F) : Option (TimedLoop F) :=
  match s.pc with
  | .probing started world =>
    match execute world cfg with
    | .ready millis result =>
      if started + millis ≤ s.clock then
        some { s with
          pc := .waiting s.clock
          published := s.published ++ [(s.clock, result)] }
      else none
    | .never => none
  | .waiting _ | .stopped => none

def step (cfg : ProbeConfig F) (s : TimedLoop F) : TimedAction F → Option (TimedLoop F)
  | .pass now => if s.clock ≤ now then some { s with clock := now } else none
  | .tick world => s.tickStep world
  | .publish => s.publishStep cfg
  | .stop =>
    match s.pc with
    | .waiting _ | .probing _ _ => some { s with pc := .stopped }
    | .stopped => none

/-- The runtime gets to what is due at most `late` milliseconds after it is. This bounds the clock,
so it is to be shown that what is due can always be done (`time_passes`). -/
def Prompt (cfg : ProbeConfig F) (late : ℕ) (s : TimedLoop F) : TimedAction F → Prop
  | .pass now => ∀ time ∈ s.due cfg, now ≤ time + late
  | .tick _ | .publish | .stop => True

/-- When the last result was published, or when the loop was spawned. -/
def newest (s : TimedLoop F) : ℕ := (s.published.getLast?.map Prod.fst).getD 0

end TimedLoop

end Huginn.Main
