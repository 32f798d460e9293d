import Huginn.Probes.Probe

/-!
# The executors

The seven probes, and the registry that picks one by the type of the probe. A probe gives a result
and never an error: what goes wrong is the text in the result.
-/

namespace Huginn.Probes

variable {F : Type} [F64 F]

/-- The message of a probe that ran out of time. -/
def timeoutMessage (cfg : ProbeConfig F) : String :=
  "timeout after " ++ toString cfg.timeoutSecs.toNat ++ "s"

section Results

variable (w : World F) (cfg : ProbeConfig F) (probeType : String)

/-- `ProbeResult::success` with the name and target of the probe. -/
def up (statusCode : Option UInt16) : ProbeResult F :=
  .success w.now cfg.name probeType cfg.target w.elapsedMs statusCode

/-- `ProbeResult::failure` with the name and target of the probe. -/
def down (message : String) : ProbeResult F :=
  .failure w.now cfg.name probeType cfg.target w.elapsedMs message

/-- A failure before the clock is started. -/
def downAtOnce (message : String) : ProbeResult F :=
  .failure w.now cfg.name probeType cfg.target (F64.ofInt 0) message

end Results

/-! ### tcp -/

/-- `tcp::probe`. -/
def Tcp.probe (w : World F) (cfg : ProbeConfig F) : Future (ProbeResult F) := do
  match ← withProbeTimeout cfg.timeout (timeoutMessage cfg) (w.connect cfg.target) with
  | .ok () => pure (up w cfg "tcp" none)
  | .error msg => pure (down w cfg "tcp" msg)

/-! ### smtp and imap -/

/-- Connect, read the greeting line, and compare its beginning. -/
def greetingProbe (probeType expected emptyMessage unexpected : String) (w : World F)
    (cfg : ProbeConfig F) : Future (ProbeResult F) := do
  let outcome ← withProbeTimeout cfg.timeout (timeoutMessage cfg) do
    w.connect cfg.target
    readGreetingLine w.stream
  match outcome with
  | .ok greeting =>
    -- what came before the end of the stream counts, with or without a line ending
    if startsWith greeting expected then pure (up w cfg probeType none)
    else if greeting = "" then pure (down w cfg probeType emptyMessage)
    else pure (down w cfg probeType (unexpected ++ trim greeting))
  | .error msg => pure (down w cfg probeType msg)

/-- `smtp::probe`. -/
def Smtp.probe (w : World F) (cfg : ProbeConfig F) : Future (ProbeResult F) :=
  greetingProbe "smtp" "220" "empty banner" "unexpected banner: " w cfg

/-- `imap::probe`. -/
def Imap.probe (w : World F) (cfg : ProbeConfig F) : Future (ProbeResult F) :=
  greetingProbe "imap" "* OK" "empty greeting" "unexpected greeting: " w cfg

/-! ### http and https -/

/-- `http::probe`. -/
def Http.probe (w : World F) (cfg : ProbeConfig F) : Future (ProbeResult F) := do
  let expected := cfg.expectedStatus.getD 200
  let probeType := cfg.probeType.display
  match ← withProbeTimeout cfg.timeout (timeoutMessage cfg) (w.get cfg.target) with
  | .ok status =>
    if status = expected then pure (up w cfg probeType (some status))
    else pure (down w cfg probeType ("unexpected status " ++ toString status.toNat ++
      ", expected " ++ toString expected.toNat))
  | .error msg => pure (down w cfg probeType msg)

/-- `HttpProbe::probe`, which needs the client. -/
def HttpProbe.probe (w : World F) (cfg : ProbeConfig F) : Future (ProbeResult F) :=
  match w.httpClient with
  | .ok () => Http.probe w cfg
  | .error e =>
    pure (downAtOnce w cfg cfg.probeType.display ("could not build an HTTP client: " ++ e))

/-! ### udp -/

/-- A query for the root, as small as a valid one can be. -/
def dnsRootQuery : List UInt8 := [0xAA, 0xBB, 0x01, 0x00, 0x00, 0x01, 0x00, 0x00, 0x00, 0x00, 0x00,
  0x00, 0x00, 0x00, 0x01, 0x00, 0x01]

/-- Bind a socket of the family of `addr`, and send the query. -/
def sendQuery (w : World F) (addr : IpAddr) : Except String Unit := do
  w.bind (if addr.isIpv6 then "[::]:0" else "0.0.0.0:0")
  w.udpConnect addr
  w.udpSend dnsRootQuery

/-- `udp::probe`. -/
def Udp.probe (w : World F) (cfg : ProbeConfig F) : Future (ProbeResult F) := do
  match ← withProbeTimeout cfg.timeout (timeoutMessage cfg) (w.lookupHost cfg.target) with
  | .error msg => pure (down w cfg "udp" msg)
  | .ok [] => pure (down w cfg "udp" "no address resolved")
  -- only the first address is tried, and waiting for its answer has a timeout of its own
  | .ok (addr :: _) =>
    match sendQuery w addr with
    | .error msg => pure (down w cfg "udp" msg)
    | .ok () =>
      match ← withProbeTimeout cfg.timeout (timeoutMessage cfg) w.udpRecv with
      | .ok n =>
        if 0 < n then pure (up w cfg "udp" none) else pure (down w cfg "udp" "empty response")
      | .error msg => pure (down w cfg "udp" msg)

/-! ### dns -/

/-- The verdict on the addresses of an answer. -/
def Dns.verdict (w : World F) (cfg : ProbeConfig F) (resolved : List IpAddr) : ProbeResult F :=
  match cfg.dnsExpectedIp with
  | none => up w cfg "dns" none
  | some expected =>
    match IpAddr.parse expected with
    | none => down w cfg "dns" ("invalid dns_expected_ip: " ++ expected)
    | some expectedIp =>
      -- compared as addresses, whatever the spelling in the config
      if expectedIp ∈ resolved then up w cfg "dns" none
      else down w cfg "dns" ("expected IP " ++ expectedIp.display ++ " not in response: " ++
        debugIpAddrs resolved)

/-- `dns::probe`. -/
def Dns.probe (w : World F) (cfg : ProbeConfig F) : Future (ProbeResult F) :=
  match SocketAddr.parse cfg.target with
  | none => pure
      (downAtOnce w cfg "dns" "invalid target address: invalid socket address syntax")
  | some nameserver =>
    match w.buildResolver nameserver with
    | .error e => pure (downAtOnce w cfg "dns" ("resolver setup failed: " ++ e))
    | .ok () => do
      let query := cfg.dnsQuery.getD "example.com"
      match ← withProbeTimeout cfg.timeout (timeoutMessage cfg) (w.lookupIp query) with
      | .error msg => pure (down w cfg "dns" msg)
      | .ok resolved => pure (Dns.verdict w cfg resolved)

/-! ### tls -/

/-- `fetch_peer_certificate`. -/
def fetchPeerCertificate (w : World F) (target : String) : Attempt (List UInt8) := do
  let some (host, _) := splitHostPort target
    | throw ("target '" ++ target ++ "' must be host:port")
  unless w.isServerName host do
    throw ("'" ++ host ++ "' is not a valid TLS server name")
  w.connect target
  match ← w.handshake with
  | some leaf => pure leaf
  | none => throw "TLS handshake completed but the peer presented no certificate"

/-- `cert_expiry_days`: days until `notAfter`, negative once expired. -/
def certExpiryDays (w : World F) (der : List UInt8) : Except String F := do
  let notAfter ← (w.notAfter der).mapError ("could not parse certificate: " ++ ·)
  pure (F64.div (F64.ofInt (notAfter - w.judgedAt.timestamp)) (F64.ofInt 86400))

/-- `expiry_verdict`: `none` with at least `threshold` days left, and otherwise the reason. -/
def expiryVerdict (days threshold : F) : Option String :=
  if F64.lt days (F64.ofInt 0) then
    some ("certificate expired " ++ F64.fixed 1 (F64.neg days) ++ " days ago")
  else if F64.lt days threshold then
    some ("certificate expires in " ++ F64.fixed 1 days ++ " days (tls_expiry_fail_days: " ++
      F64.display threshold ++ ")")
  else none

/-- The verdict on a certificate. The reading is attached to a failure too. -/
def Tls.verdict (w : World F) (cfg : ProbeConfig F) (der : List UInt8) : ProbeResult F :=
  match certExpiryDays w der with
  | .error e => down w cfg "tls" e
  | .ok days =>
    match expiryVerdict days (cfg.tlsExpiryFailDays.getD (F64.ofInt 0)) with
    | none => (up w cfg "tls" none).withMetric TLS_CERT_EXPIRY_DAYS days
    | some why => (down w cfg "tls" why).withMetric TLS_CERT_EXPIRY_DAYS days

/-- `tls::probe`. -/
def Tls.probe (w : World F) (cfg : ProbeConfig F) : Future (ProbeResult F) := do
  match ← withProbeTimeout cfg.timeout (timeoutMessage cfg) (fetchPeerCertificate w cfg.target) with
  | .error msg => pure (down w cfg "tls" msg)
  | .ok der => pure (Tls.verdict w cfg der)

/-- `TlsProbe::probe`, which needs the configuration. -/
def TlsProbe.probe (w : World F) (cfg : ProbeConfig F) : Future (ProbeResult F) :=
  match w.tlsConfig with
  | .ok () => Tls.probe w cfg
  | .error e => pure (downAtOnce w cfg "tls" ("could not build a TLS client: " ++ e))

/-! ### The registry -/

/-- `ProbeRegistry::get`, and the probe that it gives. -/
def execute (w : World F) (cfg : ProbeConfig F) : Future (ProbeResult F) :=
  match cfg.probeType with
  | .tcp => Tcp.probe w cfg
  | .http | .https => HttpProbe.probe w cfg
  | .smtp => Smtp.probe w cfg
  | .imap => Imap.probe w cfg
  | .udp => Udp.probe w cfg
  | .dns => Dns.probe w cfg
  | .tls => TlsProbe.probe w cfg

/-- What a probe loop of the config publishes: the result of one of its probes, whatever the outside
world did. -/
def Published (cfg : AppConfig F) (r : ProbeResult F) : Prop :=
  ∃ p ∈ cfg.probes, ∃ w t, execute w p = .ready t r

end Huginn.Probes
