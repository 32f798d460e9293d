import Huginn.Core.BTreeMap
import Huginn.Core.F64

/-!
# Probe results

`ProbeResult` and its two constructors, and `escape_control_chars`, which both `failure` and the
config loader use to make a string safe to print, store and serve.

The wall clock is a parameter: `Utc::now()` in a constructor is its argument `now`.
-/

namespace Huginn

/-- `DateTime<Utc>`, in nanoseconds since the epoch. -/
structure DateTime where
  nanos : ℤ
  deriving DecidableEq, Repr

/-- `DateTime::timestamp_millis`. -/
def DateTime.timestampMillis (t : DateTime) : ℤ := t.nanos.fdiv 1000000

/-- `DateTime::timestamp`. -/
def DateTime.timestamp (t : DateTime) : ℤ := t.nanos.fdiv 1000000000

/-- Days until the TLS certificate expires. -/
def TLS_CERT_EXPIRY_DAYS : String := "tls_cert_expiry_days"

/-- Result of a single probe execution. -/
structure ProbeResult (F : Type) where
  probeName : String
  probeType : String
  target : String
  up : Bool
  responseMs : F
  statusCode : Option UInt16
  error : Option String
  timestamp : DateTime
  /-- Extra numeric readings that only some probe types produce. -/
  metrics : BTreeMap String F
  deriving DecidableEq

/-! ### `escape_control_chars` -/

/-- One character: a control character becomes its textual form. -/
def escapeControlChar (c : Char) : List Char :=
  if c = '\n' then ['\\', 'n']
  else if c = '\r' then ['\\', 'r']
  else if c = '\t' then ['\\', 't']
  else if isControl c then ['\\', 'x', hexDigit (c.toNat / 16), hexDigit (c.toNat % 16)]
  else [c]

/-- Render control characters as text, leaving a string without any as it is. -/
def escapeControlChars (s : String) : String :=
  if s.toList.any isControl then String.ofList (s.toList.flatMap escapeControlChar) else s

/-- A string without control characters. -/
def ControlFree (s : String) : Prop := ∀ c ∈ s.toList, isControl c = false

instance (s : String) : Decidable (ControlFree s) :=
  decidable_of_iff (s.toList.all (! isControl ·) = true) (by simp [ControlFree])

theorem hexDigit_not_control : ∀ {n : ℕ}, n < 16 → isControl (hexDigit n) = false := by
  decide

/-- What one character becomes has no control character in it. -/
theorem escapeControlChar_controlFree (c : Char) :
    ∀ d ∈ escapeControlChar c, isControl d = false := by
  unfold escapeControlChar
  split_ifs with h1 h2 h3 hc
  · simp [isControl]
  · simp [isControl]
  · simp [isControl]
  · -- a control character is below U+00A0, so both digits are hexadecimal digits
    have hlt : c.toNat < 256 := by
      simp only [isControl, Bool.or_eq_true, Bool.and_eq_true, decide_eq_true_eq] at hc
      omega
    intro d hd
    simp only [List.mem_cons, List.not_mem_nil, or_false] at hd
    rcases hd with rfl | rfl | rfl | rfl
    · decide
    · decide
    · exact hexDigit_not_control (by omega)
    · exact hexDigit_not_control (by omega)
  · intro d hd
    rw [List.mem_singleton] at hd
    rw [hd]
    simpa using hc

/-- **No control character survives.** -/
theorem controlFree_escapeControlChars (s : String) : ControlFree (escapeControlChars s) := by
  unfold escapeControlChars
  split_ifs with h
  · intro d hd
    rw [String.toList_ofList, List.mem_flatMap] at hd
    obtain ⟨c, -, hdc⟩ := hd
    exact escapeControlChar_controlFree c d hdc
  · intro c hc
    by_contra hcon
    exact h (List.any_eq_true.mpr ⟨c, hc, by simpa using hcon⟩)

/-- A string without control characters is left as it is. -/
theorem escapeControlChars_of_controlFree {s : String} (h : ControlFree s) :
    escapeControlChars s = s := by
  unfold escapeControlChars
  rw [if_neg]
  intro hany
  obtain ⟨c, hc, hcon⟩ := List.any_eq_true.mp hany
  exact Bool.false_ne_true ((h c hc).symm.trans hcon)

example : escapeControlChars "a\r\n\x1b[31mb" = "a\\r\\n\\x1b[31mb" := by decide

/-! ### The constructors -/

namespace ProbeResult

variable {F : Type}

/-- `ProbeResult::success`. -/
def success (now : DateTime) (probeName probeType target : String) (responseMs : F)
    (statusCode : Option UInt16) : ProbeResult F where
  probeName := probeName
  probeType := probeType
  target := target
  up := true
  responseMs := responseMs
  statusCode := statusCode
  error := none
  timestamp := now
  metrics := .empty

/-- `ProbeResult::failure`. -/
def failure (now : DateTime) (probeName probeType target : String) (responseMs : F)
    (error : String) : ProbeResult F where
  probeName := probeName
  probeType := probeType
  target := target
  up := false
  responseMs := responseMs
  statusCode := none
  error := some (escapeControlChars error)
  timestamp := now
  metrics := .empty

/-- `ProbeResult::with_metric`. -/
def withMetric (r : ProbeResult F) (key : String) (value : F) : ProbeResult F :=
  { r with metrics := r.metrics.insert key value }

end ProbeResult

end Huginn
