import Huginn.Core.Duration
import Huginn.Core.Text

/-!
# Writing one batch

The decisions of `InfluxWriter::write_lines` and of the retry arm of `run_writer`: what an answer of
the server means, whether to try again, and how long to wait before.
-/

namespace Huginn.Influx

/-- Why a write failed. -/
inductive WriteError
  /-- The server never gave a verdict. -/
  | transport (message : String)
  /-- A fault of the server's own (5xx), or backpressure. -/
  | server (status : UInt16) (body : String) (retryAfterSecs : Option UInt64)
  /-- InfluxDB rejected the request itself (4xx). -/
  | client (status : UInt16) (body : String)
  deriving DecidableEq, Repr

namespace WriteError

/-- `WriteError::is_retryable`. -/
def isRetryable : WriteError → Bool
  | .client _ _ => false
  | .transport _ | .server _ _ _ => true

/-- `WriteError::retry_after_secs`. -/
def retryAfterSecs : WriteError → Option UInt64
  | .server _ _ retryAfterSecs => retryAfterSecs
  | .transport _ | .client _ _ => none

end WriteError

/-- What the writer and its client look at in a response: the status, the `Retry-After` header where
it is there and `to_str` succeeds, the address in the `Location` header where it is there and is
one, and the body where reading it succeeds. -/
structure Response where
  status : UInt16
  retryAfter : Option String
  location : Option String
  body : Option String
  deriving DecidableEq, Repr

/-- `StatusCode::is_success`. -/
def isSuccess (status : UInt16) : Bool := decide (200 ≤ status) && decide (status < 300)

/-- The end of `write_lines`, from the response to the result. -/
def classify (resp : Response) : Except WriteError Unit :=
  if isSuccess resp.status then .ok ()
  else
    let status := resp.status
    -- only the form with seconds is read, not the one with a date
    let retryAfterSecs := (resp.retryAfter.bind fun v => parseUnsigned (2 ^ 64 - 1) (trim v)).map
      UInt64.ofNat
    let body := resp.body.getD ""
    -- 4xx is permanent, but for a timeout and for backpressure
    if 500 ≤ status ∨ status = 429 ∨ status = 408 then .error (.server status body retryAfterSecs)
    else .error (.client status body)

/-- `backoff_delay`: `initial * 2^attempt`, capped at `max`. -/
def backoffDelay (initial max : Duration) (attempt : UInt32) : Duration :=
  let factor :=
    (checkedShl 1 (if attempt ≤ 31 then attempt else 31)).getD (UInt32.ofNat (2 ^ 32 - 1))
  -- an overflow of the product is the ceiling, too
  ((initial.checkedMul factor).getD max).min max

/-- The delay before the next attempt. -/
def retryDelay (initial max : Duration) (e : WriteError) (attempt : UInt32) : Duration :=
  ((e.retryAfterSecs.map Duration.fromSecs).getD (backoffDelay initial max attempt)).min max

/-! ### The retry arm -/

/-- What the retry arm depends on besides its data: whether the build checks for overflow, and
whether warnings are logged. -/
structure WriterMode where
  overflowChecks : Bool
  logsWarnings : Bool
  deriving DecidableEq, Repr

/-- `a + b` on `u32`: on overflow it panics in a build with checks, and else it wraps around. -/
def addU32 (overflowChecks : Bool) (a b : UInt32) : Except String UInt32 :=
  if overflowChecks = true ∧ 2 ^ 32 ≤ a.toNat + b.toNat then .error "attempt to add with overflow"
  else .ok (a + b)

/-- The fields of the warning of the retry arm. -/
structure RetryWarning where
  error : WriteError
  attempt : UInt32
  delayMs : UInt64
  queuedBatches : ℕ
  deriving DecidableEq, Repr

/-- What the retry arm comes to: the warning, the number of the next attempt, and the delay before
it. -/
structure RetryArm where
  warning : Option RetryWarning
  attempt : UInt32
  delay : Duration
  deriving DecidableEq, Repr

/-- The warning. Its fields are evaluated only when it is logged. -/
def retryWarning (mode : WriterMode) (e : WriteError) (attempt : UInt32) (delay : Duration)
    (queuedBatches : ℕ) : Except String (Option RetryWarning) :=
  if mode.logsWarnings then do
    let number ← addU32 mode.overflowChecks attempt 1
    -- the cast keeps the low 64 bits of a `u128`
    pure (some ⟨e, number, UInt64.ofNat delay.asMillis, queuedBatches⟩)
  else pure none

/-- The retry arm of `run_writer`, up to the wait. An error is a panic. -/
def retryArm (mode : WriterMode) (initial max : Duration) (e : WriteError) (attempt : UInt32)
    (queuedBatches : ℕ) : Except String RetryArm := do
  let delay := retryDelay initial max e attempt
  let warning ← retryWarning mode e attempt delay queuedBatches
  pure ⟨warning, saturatingSucc attempt, delay⟩

end Huginn.Influx
