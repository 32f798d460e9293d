import Huginn.Core.Load
import Huginn.Main.Startup

/-!
# Starting up

`run` up to the scheduler, as far as it can fail: the sockets of the three listeners are bound one
after the other, and between them the event hub is made, and the token of InfluxDB and the key of
the metrics endpoint are read. An error ends the process, and so does a panic of `run` itself, so
what is returned is all that there is. A panic in a task that `run` has spawned ends that task only.

Binding a socket is left to the operating system, which is told what the process has bound already,
and which chooses the port where it is asked for port 0.
-/

namespace Huginn.Main

variable {F : Type}

/-- `anyhow::Error`: its chain, from the outermost context to the cause. -/
abbrev AnyhowError := List String

/-- `with_context`. -/
def withContext {α : Type} (context : String) (x : Except AnyhowError α) : Except AnyhowError α :=
  x.mapError fun chain => context :: chain

structure Socket where
  addr : IpAddr
  port : UInt16
  deriving DecidableEq, Repr

/-- What startup asks of the world. -/
structure Outside where
  readToString : String → Except String String
  /-- `reqwest::Client::builder().build()`. -/
  buildClient : Except String Unit
  /-- `TcpListener::bind`, with the sockets that the process has bound: what `local_addr` says of
  the listener. -/
  tcpBind : List Socket → Socket → Except String Socket

/-- Bind the socket of a listener. -/
def bindListener (field what : String) (out : Outside) (bound : List Socket) (bind : String)
    (port : UInt16) : Except AnyhowError Socket :=
  match IpAddr.parse bind with
  | none =>
    .error [field ++ " '" ++ bind ++ "' is not a valid IP address", "invalid IP address syntax"]
  | some addr =>
    match out.tcpBind bound ⟨addr, port⟩ with
    | .ok socket => .ok socket
    | .error e =>
      .error ["could not bind " ++ what ++ " on " ++ bind ++ ":" ++ toString port.toNat, e]

def bindHealth : Outside → List Socket → String → UInt16 → Except AnyhowError Socket :=
  bindListener "health bind" "the health listener"

def bindUi : Outside → List Socket → String → UInt16 → Except AnyhowError Socket :=
  bindListener "ui.bind" "the debug UI"

def bindMetrics : Outside → List Socket → String → UInt16 → Except AnyhowError Socket :=
  bindListener "metrics.bind" "the metrics listener"

/-- `InfluxWriter::new`, as far as it can fail: the token. -/
def influxWriterNew (out : Outside) (cfg : InfluxConfig) : Except AnyhowError String := do
  let token ← (cfg.readToken out.readToString).mapError fun e => [e.display]
  out.buildClient.mapError fun e => ["InfluxDB write error: " ++ e]
  pure token

/-- The key of the metrics endpoint, and its socket. -/
def startMetrics (out : Outside) (bound : List Socket) (cfg : MetricsConfig) :
    Except AnyhowError (Socket × Option String) := do
  -- a key file that cannot be used stops startup, and does not switch the check off
  let apiKey ← withContext "Failed to read the metrics API key file"
    ((cfg.readApiKey out.readToString).mapError fun e => [e.display])
  let socket ← withContext "Failed to start the Prometheus metrics listener"
    (bindMetrics out bound cfg.bind cfg.port)
  pure (socket, apiKey)

/-- What is enabled is started. -/
def ifEnabled {α : Type} (enabled : Bool) (start : Except AnyhowError α) :
    Except AnyhowError (Option α) :=
  if enabled then start.map some else .ok none

/-- How `run` ends before its time. -/
inductive Failure
  | failed (e : AnyhowError)
  | panicked (p : Panic)
  deriving DecidableEq, Repr

/-- The operator `?` in `run`. -/
def orFail {α : Type} (x : Except AnyhowError α) : Except Failure α := x.mapError .failed

/-- A call that may panic. -/
def orPanic {α : Type} (x : Except Panic α) : Except Failure α := x.mapError .panicked

/-- What has been started. -/
structure Started where
  health : Option Socket
  token : String
  ui : Option Socket
  metrics : Option (Socket × Option String)
  deriving DecidableEq, Repr

/-- `run`, up to the scheduler. -/
def start (rt : Runtime) (out : Outside) (cfg : AppConfig F) : Except Failure Started := do
  let health ← orFail (ifEnabled cfg.health.enabled
    (withContext "Failed to start the health listener"
      (bindHealth out [] HEALTH_BIND cfg.health.port)))
  orPanic (eventHubNew rt cfg.eventHubCapacity)
  let token ← orFail
    (withContext "Failed to initialise InfluxDB writer" (influxWriterNew out cfg.influx))
  let ui ← orFail (ifEnabled cfg.ui.enabled
    (withContext "Failed to start the debug UI"
      (bindUi out health.toList cfg.ui.bind cfg.ui.port)))
  let metrics ← orFail (ifEnabled cfg.metrics.enabled
    (startMetrics out (health.toList ++ ui.toList) cfg.metrics))
  pure ⟨health, token, ui, metrics⟩

end Huginn.Main
