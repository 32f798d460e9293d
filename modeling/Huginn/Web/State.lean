import Huginn.Core.HashMap
import Huginn.Core.Types
import Huginn.Lib.Broadcast

/-!
# The shared state of the web handlers

`WebState` and its event loop. A completed probe is handled in two steps, and a request can be
handled between them: the result is inserted under the write lock, and then it is sent to the
clients of the event stream. A message is kept as the result that it encodes.
-/

namespace Huginn.Web

variable {F : Type}

/-- The last result of a probe. -/
abbrev lastResult (events : List (ProbeResult F)) (name : String) : Option (ProbeResult F) :=
  lastTo ProbeResult.probeName events name

/-- `WebState`, without the counters of the write path. -/
structure WebState (F : Type) where
  /-- The latest result of each probe. -/
  results : HashMap String (ProbeResult F)
  sseTx : Broadcast (ProbeResult F)

namespace WebState

/-- `WebState::new`. -/
def new : WebState F := ⟨.empty, ⟨256, [], 1⟩⟩

/-- `guard.insert(..)`, under the write lock. -/
def insert (s : WebState F) (result : ProbeResult F) : WebState F :=
  { s with results := s.results.insert result.probeName result }

/-- `sse_tx.send(..)`. That there is no client is not an error. -/
def send (s : WebState F) (result : ProbeResult F) : WebState F :=
  { s with sseTx := s.sseTx.send result }

/-- The event loop with what `rx.recv()` returns. -/
def handle (s : WebState F) : Recv (ProbeResult F) → WebState F
  | .ok result => (s.insert result).send result
  | .lagged _ | .closed => s

/-- The state after some completed probes. -/
def afterEvents (events : List (ProbeResult F)) : WebState F :=
  (events.map Recv.ok).foldl handle new

end WebState

end Huginn.Web
