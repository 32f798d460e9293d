import Huginn.Core.Config
import Huginn.Web.Prometheus

/-!
# The key of the metrics listener

`handle_prometheus`, which answers a scrape, and the check of the `Authorization` header in front of
it. How a header value is turned into text is up to the HTTP library, and so the functions take it
as `toStr`.
-/

namespace Huginn.Web

variable {F : Type} [F64 F]

/-- A byte that a header value may have: not a control character, except the tab. -/
def isHeaderByte (b : UInt8) : Bool := b == 9 || (decide (32 ≤ b) && b != 127)

structure HeaderValue where
  bytes : List UInt8
  valid : ∀ b ∈ bytes, isHeaderByte b = true

/-- The headers of a request, with their names in lower case. -/
abbrev HeaderMap := List (String × HeaderValue)

/-- `HeaderMap::get`: the first value of a name. -/
def HeaderMap.get (headers : HeaderMap) (name : String) : Option HeaderValue :=
  (headers.find? fun h => h.1 = name).map Prod.snd

/-- A response, with the headers that the handler gives it. -/
structure Response where
  status : UInt16
  headers : List (String × String)
  body : String
  deriving DecidableEq, Repr

/-- `CONTENT_TYPE`. -/
def CONTENT_TYPE : String := "text/plain; version=0.0.4; charset=utf-8"

/-- `MetricsState`, with what the handler reads of the shared state. -/
structure MetricsState (F : Type) where
  results : HashMap String (ProbeResult F)
  writeStats : WriteStats
  apiKey : Option String

/-- Byte comparison without early exit, after a comparison of the lengths. -/
def constantTimeEq (a b : List UInt8) : Bool :=
  if a.length ≠ b.length then false
  else (a.zip b).foldl (fun diff (x, y) => diff ||| (x ^^^ y)) 0 == 0

/-- `request_is_authorized`. -/
def requestIsAuthorized (toStr : HeaderValue → Option String) (headers : HeaderMap)
    (key : String) : Bool :=
  match (headers.get "authorization").bind toStr with
  | none => false
  | some value =>
    match stripPrefixStr value "Bearer " with
    | none => false
    | some presented => constantTimeEq (asBytes presented) (asBytes key)

/-- The answer without the metrics. -/
def unauthorized : Response := ⟨401, [("www-authenticate", "Bearer")], "unauthorized\n"⟩

/-- The answer with the metrics. -/
def metricsResponse (state : MetricsState F) : Response :=
  ⟨200, [("content-type", CONTENT_TYPE)], render state.results state.writeStats⟩

/-- `handle_prometheus`. -/
def handlePrometheus (toStr : HeaderValue → Option String) (state : MetricsState F)
    (headers : HeaderMap) : Response :=
  match state.apiKey with
  | some key =>
    if requestIsAuthorized toStr headers key then metricsResponse state else unauthorized
  | none => metricsResponse state

end Huginn.Web
