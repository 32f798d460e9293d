import Huginn.Core.Config
import Huginn.Core.Types

/-!
# Loading the configuration

`load_with_warnings`: the file is parsed, the environment overrides what it says, control characters
are taken out of the names and targets of the probes, and the result is checked.

Reading the file, parsing YAML and the environment are parameters.
-/

namespace Huginn

variable {F : Type} [F64 F]

/-! ### Overrides from the environment -/

/-- A variable of the environment, whose value is an arbitrary string of the operating system. -/
inductive EnvVar
  | unset
  | notUnicode
  | value (v : String)
  deriving DecidableEq, Repr

/-- `std::env::var(name).ok()`. -/
def EnvVar.ok : EnvVar → Option String
  | unset | notUnicode => none
  | value v => some v

/-- What the value of a variable makes of a config: a new one, or a warning. -/
abbrev Override (F : Type) := AppConfig F → String → Except String (AppConfig F)

/-- The value is taken as it is. -/
def overrideText (set : AppConfig F → String → AppConfig F) : Override F := fun cfg v =>
  .ok (set cfg v)

/-- The value is a boolean. -/
def overrideBool (name field : String) (get : AppConfig F → Bool)
    (set : AppConfig F → Bool → AppConfig F) : Override F := fun cfg v =>
  let word := toLowercase v
  if word = "true" ∨ word = "1" then .ok (set cfg true)
  else if word = "false" ∨ word = "0" then .ok (set cfg false)
  else .error (name ++ "='" ++ v ++ "' is not a boolean (expected true/false/1/0) — keeping " ++
    field ++ "=" ++ toString (get cfg))

/-- The value is an IP address, and kept as it is written. -/
def overrideBind (name field : String) (get : AppConfig F → String)
    (set : AppConfig F → String → AppConfig F) : Override F := fun cfg v =>
  match IpAddr.parse v with
  -- parsed only to be checked
  | some _ => .ok (set cfg v)
  | none => .error (name ++ "='" ++ v ++ "' is not a valid IP address — keeping " ++ field ++ "=" ++
      get cfg)

/-- The value is a port. -/
def overridePort (name field : String) (get : AppConfig F → UInt16)
    (set : AppConfig F → UInt16 → AppConfig F) : Override F := fun cfg v =>
  match parseUnsigned 0xFFFF v with
  | some p => .ok (set cfg (.ofNat p))
  | none => .error (name ++ "='" ++ v ++ "' is not a valid port — keeping " ++ field ++ "=" ++
      toString (get cfg).toNat)

def overrideLogFormat : Override F := fun cfg v =>
  let word := toLowercase v
  if word = "json" then .ok { cfg with log.format := .json }
  else if word = "pretty" then .ok { cfg with log.format := .pretty }
  else .error ("HUGINN_LOG_FORMAT='" ++ v ++
    "' is not a known format (expected json/pretty) — keeping log.format=" ++ cfg.log.format.debug)

/-- The variables, in the order in which they are read. -/
def envOverrides (F : Type) : List (String × Override F) :=
  [("INFLUX_URL", overrideText fun cfg v => { cfg with influx.url := v }),
    ("INFLUX_ORG", overrideText fun cfg v => { cfg with influx.org := v }),
    ("INFLUX_BUCKET", overrideText fun cfg v => { cfg with influx.bucket := v }),
    ("INFLUX_TOKEN_FILE", overrideText fun cfg v => { cfg with influx.tokenFile := v }),
    ("HUGINN_UI_ENABLED", overrideBool "HUGINN_UI_ENABLED" "ui.enabled" (·.ui.enabled)
      fun cfg b => { cfg with ui.enabled := b }),
    ("HUGINN_UI_BIND", overrideBind "HUGINN_UI_BIND" "ui.bind" (·.ui.bind)
      fun cfg v => { cfg with ui.bind := v }),
    ("HUGINN_UI_PORT", overridePort "HUGINN_UI_PORT" "ui.port" (·.ui.port)
      fun cfg p => { cfg with ui.port := p }),
    ("HUGINN_METRICS_ENABLED", overrideBool "HUGINN_METRICS_ENABLED" "metrics.enabled"
      (·.metrics.enabled) fun cfg b => { cfg with metrics.enabled := b }),
    ("HUGINN_METRICS_BIND", overrideBind "HUGINN_METRICS_BIND" "metrics.bind" (·.metrics.bind)
      fun cfg v => { cfg with metrics.bind := v }),
    ("HUGINN_METRICS_PORT", overridePort "HUGINN_METRICS_PORT" "metrics.port" (·.metrics.port)
      fun cfg p => { cfg with metrics.port := p }),
    -- a path to the key file, never the key itself
    ("HUGINN_METRICS_API_KEY_FILE",
      overrideText fun cfg v => { cfg with metrics.apiKeyFile := some v }),
    ("HUGINN_LOG_FORMAT", overrideLogFormat),
    ("HUGINN_LOG_LEVEL", overrideText fun cfg v => { cfg with log.level := v })]

/-- Apply one variable, if it is set to a Unicode string. -/
def applyOverride (env : String → EnvVar) (st : AppConfig F × List String)
    (o : String × Override F) : AppConfig F × List String :=
  match (env o.1).ok with
  | none => st
  | some v =>
    match o.2 st.1 v with
    | .ok cfg => (cfg, st.2)
    | .error warning => (st.1, st.2 ++ [warning])

/-- `AppConfig::apply_env_overrides`: the new config and the warnings. -/
def applyEnvOverrides (env : String → EnvVar) (cfg : AppConfig F) : AppConfig F × List String :=
  (envOverrides F).foldl (applyOverride env) (cfg, [])

/-! ### Control characters -/

/-- The warning about a name or target that had control characters. -/
def rewrittenWarning (field escaped : String) : String :=
  "probe " ++ field ++ " contains control characters and was rewritten to '" ++ escaped ++
    "' — they reach the console, the Prometheus labels and the InfluxDB tags, " ++
    "where a control byte drives the reader's terminal"

/-- One name or target: what replaces it, and the warning if that is something else. -/
def escapeNamed (field value : String) : String × List String :=
  let escaped := escapeControlChars value
  if escaped ≠ value then (escaped, [rewrittenWarning field escaped]) else (value, [])

def ProbeConfig.escapeControlCharsInNames (p : ProbeConfig F) : ProbeConfig F × List String :=
  let (name, nameWarnings) := escapeNamed "name" p.name
  let (target, targetWarnings) := escapeNamed "target" p.target
  ({ p with name := name, target := target }, nameWarnings ++ targetWarnings)

/-- `AppConfig::escape_control_chars_in_names`: the new config and the warnings. -/
def escapeControlCharsInNames (cfg : AppConfig F) : AppConfig F × List String :=
  ({ cfg with probes := cfg.probes.map fun p => p.escapeControlCharsInNames.1 },
    cfg.probes.flatMap fun p => p.escapeControlCharsInNames.2)

/-! ### Checks -/

/-- Reject with a message unless the condition holds. -/
def require (p : Prop) [Decidable p] (message : String) : Except HuginError Unit :=
  if p then .ok () else .error (.config message)

/-- A value that has to be there. -/
def requireSome {α : Type} (x : Option α) (message : String) : Except HuginError α :=
  match x with
  | some a => .ok a
  | none => .error (.config message)

/-- A check of a value, if there is one. -/
def checkSome {α : Type} (x : Option α) (check : α → Except HuginError Unit) :
    Except HuginError Unit :=
  match x with
  | some a => check a
  | none => .ok ()

/-- Whether listeners bound to `a` and `b` would contend for one port. -/
def addressesContend (a b : IpAddr) : Bool :=
  -- the unspecified IPv6 address covers every address, that of IPv4 those of IPv4
  a = b || (a.isUnspecified && (a.isIpv6 || b.isIpv4)) ||
    (b.isUnspecified && (b.isIpv6 || a.isIpv4))

/-- Whether `target` ends in `:<port>` with something before it. -/
def hasPortSuffix (target : String) : Bool :=
  match rsplitOnce target ':' with
  | some (host, port) => host ≠ "" && (parseUnsigned 0xFFFF port).isSome
  | none => false

def defaultPortHint : ProbeType → UInt16
  | .smtp => 25
  | .imap => 143
  | .udp => 53
  | .tls => 443
  | _ => 80

/-- The checks of the `influx` section. -/
def InfluxConfig.validate (c : InfluxConfig) : Except HuginError Unit := do
  require (c.url ≠ "") "influx.url must not be empty"
  require (startsWith c.url "http://" ∨ startsWith c.url "https://")
    ("influx.url '" ++ c.url ++ "' must be an absolute URL starting with http:// or https://")
  require (c.org ≠ "") "influx.org must not be empty"
  require (c.bucket ≠ "") "influx.bucket must not be empty"
  require (c.batchSize ≠ 0) "influx.batch_size must be > 0 (0 would flush a POST per probe result)"
  require (c.batchTimeoutMs ≠ 0)
    "influx.batch_timeout_ms must be > 0 (0 spins the batcher's flush timer at 100% CPU)"
  require (c.maxBufferedBytes ≠ 0)
    ("influx.max_buffered_bytes must be > 0 " ++
      "(0 makes the retry queue drop every batch during an outage)")
  require (c.retryInitialBackoffMs ≠ 0)
    ("influx.retry_initial_backoff_ms must be > 0 " ++
      "(0 retries in a tight loop against a failing server)")
  require (c.retryMaxBackoffMs ≠ 0)
    "influx.retry_max_backoff_ms must be > 0 (0 caps every retry wait at zero)"
  require (c.retryInitialBackoffMs ≤ c.retryMaxBackoffMs)
    ("influx.retry_max_backoff_ms (" ++ toString c.retryMaxBackoffMs.toNat ++
      ") is below influx.retry_initial_backoff_ms (" ++ toString c.retryInitialBackoffMs.toNat ++
      ") — the ceiling must not be lower than the first delay")

/-- A listener that can be reached has a port. -/
def validatePort (name : String) (enabled : Bool) (port : UInt16) : Except HuginError Unit :=
  require (¬ (enabled ∧ port = 0))
    (name ++ ".port must not be 0 — port 0 asks the OS for an arbitrary free port, " ++
      "so nothing could be configured to reach it")

/-- A listener does not get in the way of the liveness listener. -/
def validateHealth (health : HealthConfig) (name : String) (enabled : Bool) (bind : String)
    (addr : IpAddr) (port : UInt16) : Except HuginError Unit :=
  require
    (¬ (health.enabled ∧ enabled ∧ port = health.port ∧ addressesContend addr HEALTH_ADDR))
    (name ++ " is enabled on " ++ bind ++ ":" ++ toString port.toNat ++
      ", which cannot be bound while the health listener holds " ++ HEALTH_BIND ++ ":" ++
      toString port.toNat ++ " — give " ++ name ++ " another port, or set health.enabled: false")

/-- The checks of the listeners. -/
def AppConfig.validateListeners (cfg : AppConfig F) : Except HuginError Unit := do
  let uiAddr ← requireSome (IpAddr.parse cfg.ui.bind)
    ("ui.bind '" ++ cfg.ui.bind ++ "' must be an IP address, e.g. '127.0.0.1', '0.0.0.0' or '::1'")
  let metricsAddr ← requireSome (IpAddr.parse cfg.metrics.bind)
    ("metrics.bind '" ++ cfg.metrics.bind ++
      "' must be an IP address, e.g. '127.0.0.1', '0.0.0.0' or '::1'")
  validatePort "ui" cfg.ui.enabled cfg.ui.port
  validatePort "metrics" cfg.metrics.enabled cfg.metrics.port
  -- no key is the way to switch it off
  require (cfg.metrics.apiKeyFile ≠ some "")
    "metrics.api_key_file must not be empty (omit the key to disable auth)"
  -- compared as parsed, so that two spellings of one address meet
  require (¬ (cfg.ui.enabled ∧ cfg.metrics.enabled ∧ addressesContend uiAddr metricsAddr ∧
      cfg.ui.port = cfg.metrics.port))
    ("ui and metrics are both enabled on " ++ cfg.ui.bind ++ ":" ++ toString cfg.ui.port.toNat ++
      " — give metrics its own port (metrics.port)")
  -- the listener that is on by default, so the one most likely in the way
  validateHealth cfg.health "ui" cfg.ui.enabled cfg.ui.bind uiAddr cfg.ui.port
  validateHealth cfg.health "metrics" cfg.metrics.enabled cfg.metrics.bind metricsAddr
    cfg.metrics.port

/-- `ProbeConfig::validate_target`: the shape that this probe type needs. -/
def ProbeConfig.validateTarget (p : ProbeConfig F) : Except HuginError Unit :=
  match p.probeType with
  | .dns =>
    require (SocketAddr.parse p.target).isSome
      ("probe '" ++ p.name ++ "': dns target '" ++ p.target ++
        "' must be a nameserver address with a port, " ++
        "e.g. '8.8.8.8:53' or '[2001:4860:4860::8888]:53'")
  | .tcp | .smtp | .imap | .udp | .tls =>
    require (hasPortSuffix p.target)
      ("probe '" ++ p.name ++ "': " ++ p.probeType.display ++ " target '" ++ p.target ++
        "' must include a port, e.g. '" ++ p.target ++ ":" ++
        toString (defaultPortHint p.probeType).toNat ++ "'")
  | .http | .https =>
    require (startsWith p.target "http://" ∨ startsWith p.target "https://")
      ("probe '" ++ p.name ++ "': " ++ p.probeType.display ++ " target '" ++ p.target ++
        "' must be an absolute URL starting with http:// or https://")

/-- The checks of one probe, given the names before it. -/
def ProbeConfig.validate (seen : List String) (p : ProbeConfig F) : Except HuginError Unit := do
  require (p.name ≠ "") "probe name must not be empty"
  require (p.name ∉ seen) ("duplicate probe name '" ++ p.name ++
    "': names must be unique — they key the UI and the InfluxDB series")
  require (p.target ≠ "") ("probe '" ++ p.name ++ "': target must not be empty")
  require (p.intervalSecs ≠ 0) ("probe '" ++ p.name ++ "': interval_secs must be > 0")
  require (p.timeoutSecs ≠ 0) ("probe '" ++ p.name ++ "': timeout_secs must be > 0")
  checkSome p.tlsExpiryFailDays fun days => do
    -- every comparison with NaN is false
    require (F64.isFinite days) ("probe '" ++ p.name ++
      "': tls_expiry_fail_days must be a finite number (got " ++ F64.display days ++
      ") — NaN makes every expiry comparison false, so the probe would report UP " ++
      "however close the certificate is to expiring")
    require (¬ F64.lt days (F64.ofInt 0)) ("probe '" ++ p.name ++
      "': tls_expiry_fail_days must be >= 0 " ++
      "(omit it to fail only once the certificate has expired)")
  checkSome p.expectedStatus fun status =>
    require (100 ≤ status ∧ status ≤ 599) ("probe '" ++ p.name ++ "': expected_status " ++
      toString status.toNat ++ " is not a valid HTTP status code (100-599), " ++
      "so the probe could never match it")
  checkSome p.dnsExpectedIp fun ip =>
    require (IpAddr.parse ip).isSome ("probe '" ++ p.name ++ "': dns_expected_ip '" ++ ip ++
      "' is not an IP address — it is compared against the resolved address, " ++
      "so nothing would ever match it")
  p.validateTarget

/-- The checks of the probes, in order. -/
def validateProbes (seen : List String) : List (ProbeConfig F) → Except HuginError Unit
  | [] => .ok ()
  | p :: probes => do
    p.validate seen
    validateProbes (p.name :: seen) probes

/-- `AppConfig::validate`. -/
def AppConfig.validate (cfg : AppConfig F) : Except HuginError Unit := do
  cfg.influx.validate
  require (cfg.eventHubCapacity ≠ 0) "event_hub_capacity must be > 0"
  cfg.validateListeners
  validateProbes [] cfg.probes

/-! ### Loading -/

/-- `AppConfig::load_with_warnings`. -/
def loadWithWarnings (readToString : String → Except String String)
    (fromStr : String → Except String (AppConfig F)) (env : String → EnvVar) (path : String) :
    Except HuginError (AppConfig F × List String) := do
  let content ← (readToString path).mapError fun e =>
    .config ("Cannot read config file '" ++ path ++ "': " ++ e)
  let cfg ← (fromStr content).mapError fun e => .config ("YAML parse error: " ++ e)
  let (cfg, envWarnings) := applyEnvOverrides env cfg
  -- before the checks, so that names are compared as they will be published
  let (cfg, nameWarnings) := escapeControlCharsInNames cfg
  cfg.validate
  .ok (cfg, envWarnings ++ nameWarnings)

end Huginn
