import Huginn.Lib.Feed
import Huginn.Main.Process
import Huginn.Web.State

/-!
# The subscribers of the hub

The process with the tasks that only listen: the console, which `run` subscribes before anything
else, and the event loop of the web state, which it subscribes where the debug UI or the metrics are
enabled. Neither holds a sender of the hub, and neither has a step of the process to wait for.

What the batcher has been told is recorded beside them (`Daemon.batcher`). No step reads it.
-/

namespace Huginn.Main

open Influx Web

variable {F : Type} [F64 F]

/-- The event loop of the web state: between the insertion of a result and its `sse_tx.send` it
holds that result. -/
structure WebTask (F : Type) where
  feed : Feed (ProbeResult F)
  state : WebState F
  sending : Option (ProbeResult F)

/-- What the configuration says: also whether `ui.enabled` or `metrics.enabled`. -/
structure DaemonArgs where
  process : ProcessArgs
  web : Bool
  deriving DecidableEq, Repr

/-- The process and the tasks that listen. -/
structure Daemon (F : Type) where
  process : Process F
  console : Feed (ProbeResult F)
  web : Option (WebTask F)
  batcher : Feed (ProbeResult F)

inductive DaemonAction (F : Type)
  | process (a : ProcessAction F)
  -- `console_rx.recv()` completes, and what it gives is printed
  | print
  -- `start_event_loop`
  | startWeb
  -- the event loop: `rx.recv()` completes, and a result is inserted; the result is sent
  | insert
  | send
  deriving DecidableEq

namespace Daemon

/-- At the beginning of `run`. -/
def new (args : DaemonArgs) : Daemon F where
  process := .new args.process
  console := .subscribe (Process.new args.process : Process F).hub
  web := none
  batcher := .subscribe (Process.new args.process : Process F).hub

/-- `run` is about to start the event loop of the web state. -/
def webDue (args : DaemonArgs) (s : Daemon F) : Bool :=
  args.web && s.web.isNone && s.process.main == .subscribe

/-- What the batcher is told by a step of the process. -/
def tellBatcher (s : Daemon F) : ProcessAction F → Feed (ProbeResult F)
  | .recv =>
    match s.process.batcherRx with
    | some rx =>
      match s.process.hub.recv rx with
      | some (event, next) => s.batcher.push event next
      | none => s.batcher
    | none => s.batcher
  | _ => s.batcher

/-- A step of the process. -/
def processStep (args : DaemonArgs) (s : Daemon F) (a : ProcessAction F) : Option (Daemon F) :=
  (s.process.step args.process a).map fun p =>
    { s with process := p, batcher := s.tellBatcher a }

/-- `rx.recv()` of the event loop. Of what it has missed it only logs how much that was. -/
def insertStep (s : Daemon F) (w : WebTask F) : Option (Daemon F) :=
  match w.sending, w.feed.event s.process.hub with
  | none, some (.ok result, next) =>
    some { s with
      web := some ⟨w.feed.push (.ok result) next, w.state.insert result, some result⟩ }
  | none, some (event, next) =>
    some { s with web := some { w with feed := w.feed.push event next } }
  | some _, _ | none, none => none

/-- One step, for as long as `run` has not returned. -/
def step (args : DaemonArgs) (s : Daemon F) (a : DaemonAction F) : Option (Daemon F) :=
  match s.process.main, a with
  | .finished _, _ => none
  | _, .process .start => if s.webDue args then none else s.processStep args .start
  | _, .process a => s.processStep args a
  | _, .print => (s.console.recv s.process.hub).map fun feed => { s with console := feed }
  | _, .startWeb =>
    if s.webDue args then
      some { s with web := some ⟨.subscribe s.process.hub, .new, none⟩ }
    else none
  | _, .insert => s.web.bind s.insertStep
  | _, .send =>
    match s.web with
    | some ⟨feed, state, some result⟩ =>
      some { s with web := some ⟨feed, state.send result, none⟩ }
    | _ => none

/-- All the subscribers. -/
def subscribers (s : Daemon F) : List (Feed (ProbeResult F)) :=
  s.console :: s.batcher :: (s.web.map WebTask.feed).toList

/-- The condition of a drain that leaves nothing, on the steps of the process. -/
def LeavesNothing (s : Daemon F) : DaemonAction F → Prop
  | .process a => s.process.LeavesNothing a
  | .print | .startWeb | .insert | .send => True

end Daemon

end Huginn.Main
