import Huginn.Core.Correct.Text
import Huginn.Probes.Probe

/-!
# When a target is up

What each type of probe is there to find out: which operations of the network succeed, what they
give and which bytes arrive, and that the timeout of the probe covers all of it. How a probe goes
about it plays no part: of the probes themselves there is only `split_host_port`, which says what
the host of a target is.

The one exception to the timeout has a name of its own: a UDP target that takes longer for both of
its answers together, but not for either of them (`Overdue`).
-/

namespace Huginn.Probes

/-- The operation succeeds after some milliseconds. -/
def Succeeds {α : Type} (op : Attempt α) (millis : ℕ) (a : α) : Prop :=
  op.run = .ready millis (.ok a)

/-- The first of some chunks arrive: how long that takes, their bytes, and the chunks that are
left. -/
inductive Arrives : List (Future Chunk) → ℕ → List UInt8 → List (Future Chunk) → Prop
  | nil (chunks : List (Future Chunk)) : Arrives chunks 0 [] chunks
  | cons {t u : ℕ} {chunk : Chunk} {bytes : List UInt8} {chunks rest : List (Future Chunk)}
      (h : Arrives chunks u bytes rest) :
      Arrives (.ready t chunk :: chunks) (t + u) (chunk.bytes ++ bytes) rest

/-- What a peer has sent by then is a greeting: it has a line ending, it is as long as a greeting
can be, or the peer sends nothing more. -/
inductive Greeting (stream : Stream) : ℕ → List UInt8 → Prop
  | line {t : ℕ} {bytes : List UInt8} {rest : List (Future Chunk)}
      (h : Arrives stream.chunks t bytes rest) (hline : 0x0A ∈ bytes) : Greeting stream t bytes
  | long {t : ℕ} {bytes : List UInt8} {rest : List (Future Chunk)}
      (h : Arrives stream.chunks t bytes rest) (hlong : MAX_GREETING_BYTES ≤ bytes.length) :
      Greeting stream t bytes
  | closed {t u : ℕ} {bytes : List UInt8} (h : Arrives stream.chunks t bytes [])
      (hfinish : Succeeds stream.finish u ()) : Greeting stream (t + u) bytes

/-- A query that every DNS server understands: an id, the flags of a query, one question, and the
question: the root, type A, class IN. -/
def rootQuery : List UInt8 :=
  [0xAA, 0xBB] ++ [0x01, 0x00] ++ [0, 1, 0, 0, 0, 0, 0, 0] ++ ([0] ++ [0, 1] ++ [0, 1])

variable {F : Type} (w : World F) (cfg : ProbeConfig F)

/-- The target accepts a connection. -/
def Tcp.Healthy : Prop := ∃ t ≤ cfg.timeout.asMillis, Succeeds (w.connect cfg.target) t ()

/-- The target accepts a connection and greets as expected. -/
def Greets (expected : String) : Prop :=
  ∃ t u bytes, t + u ≤ cfg.timeout.asMillis ∧ Succeeds (w.connect cfg.target) t () ∧
    Greeting w.stream u bytes ∧ asciiBytes expected <+: bytes

/-- The target answers with the expected status. -/
def HttpProbe.Healthy : Prop :=
  w.httpClient = .ok () ∧
    ∃ t ≤ cfg.timeout.asMillis, Succeeds (w.get cfg.target) t (cfg.expectedStatus.getD 200)

/-- The target has an address after `lookup` milliseconds, and something comes back from the first
one `answer` milliseconds after a query was sent there. -/
def Udp.Answers (lookup answer : ℕ) : Prop :=
  ∃ addr addrs n, Succeeds (w.lookupHost cfg.target) lookup (addr :: addrs) ∧
    w.bind (if addr.isIpv6 then "[::]:0" else "0.0.0.0:0") = .ok () ∧
      w.udpConnect addr = .ok () ∧ w.udpSend rootQuery = .ok () ∧
        Succeeds w.udpRecv answer n ∧ 0 < n

/-- The target has an address and answers. -/
def Udp.Healthy : Prop := ∃ t u, t + u ≤ cfg.timeout.asMillis ∧ Udp.Answers w cfg t u

/-- The nameserver answers, with the expected address if there is one. -/
def Dns.Healthy : Prop :=
  ∃ nameserver, SocketAddr.parse cfg.target = some nameserver ∧
    w.buildResolver nameserver = .ok () ∧
      ∃ t ≤ cfg.timeout.asMillis, ∃ resolved,
        Succeeds (w.lookupIp (cfg.dnsQuery.getD "example.com")) t resolved ∧
          ∀ expected ∈ cfg.dnsExpectedIp, ∃ ip ∈ resolved, IpAddr.parse expected = some ip

/-- The target presents a certificate in a TLS handshake. -/
def Presents (millis : ℕ) (leaf : List UInt8) : Prop :=
  ∃ host port, splitHostPort cfg.target = some (host, port) ∧ w.isServerName host = true ∧
    ∃ t u, t + u = millis ∧ Succeeds (w.connect cfg.target) t () ∧
      Succeeds w.handshake u (some leaf)

/-- The target is a UDP service that answers too late: not within the timeout of the probe, though
neither its name nor its answer takes that long. -/
def Overdue : Prop :=
  cfg.probeType = .udp ∧ ∃ t u, cfg.timeout.asMillis < t + u ∧
    (t ≤ cfg.timeout.asMillis ∧ u ≤ cfg.timeout.asMillis) ∧ Udp.Answers w cfg t u

variable [F64 F]

/-- The days until the certificate of the target expires. -/
def DaysLeft (days : F) : Prop :=
  w.tlsConfig = .ok () ∧ ∃ t ≤ cfg.timeout.asMillis, ∃ leaf notAfter, Presents w cfg t leaf ∧
    w.notAfter leaf = .ok notAfter ∧
      days = F64.div (F64.ofInt (notAfter - w.judgedAt.timestamp)) (F64.ofInt 86400)

/-- The certificate has not expired, and does not for as long as the config asks for. -/
def TlsProbe.Healthy : Prop :=
  ∃ days, DaysLeft w cfg days ∧ F64.lt days (F64.ofInt 0) = false ∧
    F64.lt days (cfg.tlsExpiryFailDays.getD (F64.ofInt 0)) = false

/-- The target of the probe is up. -/
def Healthy : Prop :=
  match cfg.probeType with
  | .tcp => Tcp.Healthy w cfg
  | .http | .https => HttpProbe.Healthy w cfg
  | .smtp => Greets w cfg "220"
  | .imap => Greets w cfg "* OK"
  | .udp => Udp.Healthy w cfg
  | .dns => Dns.Healthy w cfg
  | .tls => TlsProbe.Healthy w cfg

end Huginn.Probes
