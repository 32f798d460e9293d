import Huginn.Core.Config
import Huginn.Core.Text
import Huginn.Lib.Percent

/-!
# The URL of a write request

What `InfluxWriter::new` makes of the configured URL, organisation and bucket.
-/

namespace Huginn.Influx

/-- The bytes that `urlencode` leaves as they are. -/
def isUnreserved (b : UInt8) : Bool :=
  decide (65 ≤ b ∧ b ≤ 90) || decide (97 ≤ b ∧ b ≤ 122) || decide (48 ≤ b ∧ b ≤ 57) ||
    b == 45 || b == 95 || b == 46 || b == 126

/-- `urlencode`: the UTF-8 bytes, each as it is or as `%` and two upper-case digits. -/
def urlencode (s : String) : String :=
  String.ofList ((asBytes s).flatMap (Percent.encodeByte isUnreserved))

/-- The `write_url` of a new `InfluxWriter`. -/
def writeUrl (cfg : InfluxConfig) : String :=
  trimEndMatches cfg.url '/' ++ "/api/v2/write?org=" ++ urlencode cfg.org ++ "&bucket=" ++
    urlencode cfg.bucket ++ "&precision=ms"

example : urlencode "my org/ä" = "my%20org%2F%C3%A4" := by decide

end Huginn.Influx
