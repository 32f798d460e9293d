import Huginn.Core.Config
import Huginn.Lib.Future

/-!
# The health check

`check_health`, which the subcommand `healthcheck` runs: one request over a plain TCP connection,
one `read` of what comes back, and a look at the status line.

What the listener sends is a stream of bytes that arrives in segments. A `read` gives the bytes of
the next segment, but no more than the buffer holds.
-/

namespace Huginn.Web

/-- Some bytes that arrive together. -/
structure Segment where
  bytes : List UInt8
  nonempty : bytes ≠ []
  deriving Repr

/-- What the health check meets: connecting to an address and port, writing the request, and what
can be read, segments and then the end of the stream or an error. -/
structure HealthPeer where
  connect : String → UInt16 → Attempt Unit
  writeAll : String → Attempt Unit
  segments : List (Future Segment)
  finish : Attempt Unit

/-- `AsyncReadExt::read` into a buffer: nothing at the end of the stream. -/
def HealthPeer.read (peer : HealthPeer) (size : ℕ) : Attempt (List UInt8) :=
  match peer.segments with
  | [] => do
    peer.finish
    pure []
  | segment :: _ => do
    let segment ← (segment : Future Segment)
    pure (segment.bytes.take size)

/-- `HEALTHCHECK_TIMEOUT`. -/
def HEALTHCHECK_TIMEOUT : Duration := .fromSecs 5

/-- The size of the buffer. -/
def HEALTH_BUF : ℕ := 64

/-- The request. -/
def healthRequest : String :=
  "GET /health HTTP/1.0\r\nHost: " ++ HEALTH_BIND ++ "\r\nConnection: close\r\n\r\n"

/-- `str::lines().next()`. -/
def firstLine (s : String) : Option String :=
  if s = "" then none
  else
    let line := s.toList.takeWhile (· ≠ '\n')
    -- a carriage return belongs to a line ending only
    if '\n' ∈ s.toList ∧ line.getLast? = some '\r' then some (String.ofList line.dropLast)
    else some (String.ofList line)

/-- Connect, send the request, and read once. -/
def askHealth (peer : HealthPeer) (port : UInt16) : Attempt String := do
  peer.connect HEALTH_BIND port
  peer.writeAll healthRequest
  let bytes ← peer.read HEALTH_BUF
  pure (fromUtf8Lossy bytes)

/-- `check_health`. An error is the text that it is displayed as. -/
def checkHealth (peer : HealthPeer) (port : UInt16) (timeout : Duration) :
    Future (Except String Unit) := do
  let address := HEALTH_BIND ++ ":" ++ toString port.toNat
  match ← Future.timeout timeout.asMillis (askHealth peer port).run with
  | none => pure (.error ("no answer from " ++ address ++ " within " ++ timeout.debug))
  | some (.error _) => pure (.error ("could not reach the health listener on " ++ address))
  | some (.ok result) =>
    if startsWith result "HTTP/1.0 200" ∨ startsWith result "HTTP/1.1 200" then pure (.ok ())
    else pure (.error ("health listener on " ++ address ++ " did not answer 200: " ++
      (firstLine result).getD "<empty response>"))

end Huginn.Web
