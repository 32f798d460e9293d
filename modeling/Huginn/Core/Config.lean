import Huginn.Core.Duration
import Huginn.Core.F64
import Huginn.Core.Net

/-!
# The configuration

`AppConfig` and its sections, with their defaults, and the secrets that it names files of. `usize`
is 64 bits wide, and a float is an `F`.
-/

namespace Huginn

/-- The errors of loading. -/
inductive HuginError
  | config (message : String)
  | secret (path message : String)
  deriving DecidableEq, Repr

/-- `impl Display for HuginError`. -/
def HuginError.display : HuginError → String
  | config message => "Configuration error: " ++ message
  | secret path message => "Secret file error at '" ++ path ++ "': " ++ message

/-! ### The sections -/

/-- The write path. -/
structure InfluxConfig where
  url : String
  org : String
  bucket : String
  tokenFile : String
  batchSize : UInt64
  batchTimeoutMs : UInt64
  maxBufferedBytes : UInt64
  retryInitialBackoffMs : UInt64
  retryMaxBackoffMs : UInt64
  shutdownDrainTimeoutMs : UInt64
  deriving DecidableEq, Repr

def InfluxConfig.default : InfluxConfig where
  url := ""
  org := ""
  bucket := ""
  tokenFile := "/run/secrets/influx_token"
  batchSize := 10
  batchTimeoutMs := 1000
  maxBufferedBytes := 8 * 1024 * 1024
  retryInitialBackoffMs := 500
  retryMaxBackoffMs := 30000
  shutdownDrainTimeoutMs := 5000

structure UiConfig where
  enabled : Bool
  bind : String
  port : UInt16
  deriving DecidableEq, Repr

def UiConfig.default : UiConfig := ⟨false, "127.0.0.1", 9116⟩

structure MetricsConfig where
  enabled : Bool
  bind : String
  port : UInt16
  apiKeyFile : Option String
  deriving DecidableEq, Repr

def MetricsConfig.default : MetricsConfig := ⟨false, "127.0.0.1", 9464, none⟩

/-- The liveness listener, the only one that is on by default. -/
structure HealthConfig where
  enabled : Bool
  port : UInt16
  deriving DecidableEq, Repr

def HealthConfig.default : HealthConfig := ⟨true, 9115⟩

/-- The address that the liveness listener binds. -/
def HEALTH_BIND : String := "127.0.0.1"

/-- The same address, parsed. -/
def HEALTH_ADDR : IpAddr := .v4 .LOCALHOST

example : IpAddr.parse HEALTH_BIND = some HEALTH_ADDR := by decide

inductive LogFormat
  | pretty
  | json
  deriving DecidableEq, Repr

/-- `{:?}`. -/
def LogFormat.debug : LogFormat → String
  | pretty => "Pretty"
  | json => "Json"

structure LogConfig where
  format : LogFormat
  level : String
  deriving DecidableEq, Repr

def LogConfig.default : LogConfig := ⟨.pretty, "info"⟩

inductive ProbeType
  | tcp
  | http
  | https
  | smtp
  | imap
  | udp
  | dns
  | tls
  deriving DecidableEq, Repr

/-- `impl Display for ProbeType`. -/
def ProbeType.display : ProbeType → String
  | tcp => "tcp"
  | http => "http"
  | https => "https"
  | smtp => "smtp"
  | imap => "imap"
  | udp => "udp"
  | dns => "dns"
  | tls => "tls"

structure ProbeConfig (F : Type) where
  name : String
  probeType : ProbeType
  target : String
  intervalSecs : UInt64
  timeoutSecs : UInt64
  -- HTTP/HTTPS only: the status code that is UP
  expectedStatus : Option UInt16
  -- DNS only: the host name to resolve, and an address that the answer has to contain
  dnsQuery : Option String
  dnsExpectedIp : Option String
  -- TLS only: DOWN once the certificate expires in fewer days than this
  tlsExpiryFailDays : Option F
  deriving DecidableEq

namespace ProbeConfig

variable {F : Type}

def default : ProbeConfig F := ⟨"", .tcp, "", 30, 5, none, none, none, none⟩

def timeout (p : ProbeConfig F) : Duration := .fromSecs p.timeoutSecs

def interval (p : ProbeConfig F) : Duration := .fromSecs p.intervalSecs

end ProbeConfig

structure AppConfig (F : Type) where
  influx : InfluxConfig
  probes : List (ProbeConfig F)
  ui : UiConfig
  metrics : MetricsConfig
  health : HealthConfig
  log : LogConfig
  eventHubCapacity : UInt64
  deriving DecidableEq

/-- A file with an `influx` section and the probes, and nothing else. -/
def AppConfig.ofInflux {F : Type} (influx : InfluxConfig) (probes : List (ProbeConfig F)) :
    AppConfig F where
  influx := influx
  probes := probes
  ui := .default
  metrics := .default
  health := .default
  log := .default
  eventHubCapacity := 256

/-! ### Secrets

`readToString` is what reading a file gives: its contents, or the text of an error. -/

/-- A trimmed secret, which may not be empty. -/
def readSecret (readToString : String → Except String String) (path emptyMessage : String) :
    Except HuginError String := do
  let secret ← ((readToString path).map trim).mapError fun e => .secret path e
  if secret = "" then .error (.secret path emptyMessage) else .ok secret

/-- `InfluxConfig::read_token`. -/
def InfluxConfig.readToken (readToString : String → Except String String) (c : InfluxConfig) :
    Except HuginError String :=
  readSecret readToString c.tokenFile "InfluxDB token file is empty"

/-- `MetricsConfig::read_api_key`. A file that cannot be used is an error, not `none`. -/
def MetricsConfig.readApiKey (readToString : String → Except String String) (c : MetricsConfig) :
    Except HuginError (Option String) :=
  match c.apiKeyFile with
  | none => .ok none
  | some path => (readSecret readToString path "metrics API key file is empty").map some

end Huginn
