import Huginn.Core.Types

/-!
# Line protocol

`to_line_protocol`, which renders a probe result as one point, and the text of a batch, which is the
points of its results on a line each.
-/

namespace Huginn.Influx

/-- Escape a tag key/value for line protocol. The backslash goes first. -/
def escapeTag (s : String) : String :=
  replace (replace (replace (replace s '\\' "\\\\") ',' "\\,") '=' "\\=") ' ' "\\ "

/-- Escape a quoted string field value for line protocol. The backslash goes first. -/
def escapeFieldStr (s : String) : String :=
  replace (replace (replace (replace s '\\' "\\\\") '"' "\\\"") '\n' "\\n") '\r' "\\r"

variable {F : Type} [F64 F]

/-- Build a line-protocol string from a `ProbeResult`. -/
def toLineProtocol (r : ProbeResult F) : String :=
  let tsMs := r.timestamp.timestampMillis
  let upVal : ℤ := if r.up then 1 else 0
  let line := "probe_result,probe_name=" ++ escapeTag r.probeName ++ ",probe_type=" ++
    escapeTag r.probeType ++ ",target=" ++ escapeTag r.target ++ " up=" ++ toString upVal ++
    "i,response_ms=" ++ F64.fixed 3 r.responseMs
  let line := match r.statusCode with
    | some code => line ++ (",status_code=" ++ toString code.toNat ++ "i")
    | none => line
  let line := match r.error with
    | some err => line ++ (",error=\"" ++ escapeFieldStr err ++ "\"")
    | none => line
  -- in the order of the keys
  let line := r.metrics.entries.foldl
    (fun line (key, value) => line ++ ("," ++ escapeTag key ++ "=" ++ F64.display value)) line
  line ++ (" " ++ toString tsMs)

/-- The text that `enqueue` pushes for a buffer. -/
def batchText (buffer : List (ProbeResult F)) : String :=
  String.intercalate "\n" (buffer.map toLineProtocol)

/-- A result with a delimiter, a quote or a backslash in every text it has. -/
def sampleResult : ProbeResult Decimal where
  probeName := "web,\"1\"\\"
  probeType := "http"
  target := "https://example.com/?a=b c"
  up := false
  responseMs := ⟨42123, 3⟩
  statusCode := some 503
  error := some "said \"no\" \\"
  timestamp := ⟨1705312800000000000⟩
  metrics := BTreeMap.empty.insert TLS_CERT_EXPIRY_DAYS ⟨425, 1⟩

example : toLineProtocol sampleResult =
    "probe_result,probe_name=web\\,\"1\"\\\\,probe_type=http," ++
     "target=https://example.com/?a\\=b\\ c up=0i,response_ms=42.123,status_code=503i," ++
     "error=\"said \\\"no\\\" \\\\\",tls_cert_expiry_days=42.5 1705312800000" := by
  decide +kernel

end Huginn.Influx
