import Huginn.Core.Config
import Huginn.Core.Types
import Huginn.Lib.Future

/-!
# What the probes share

`with_probe_timeout`, `read_greeting_line` and `split_host_port`, and what the outside world does
while a probe runs.

A network operation is an `Attempt`: it succeeds or fails with some error text, after some time or
never. Nothing is assumed about any of them, or about the clocks.
-/

namespace Huginn.Probes

/-- A read that is not empty: 1 to 128 bytes, the size of the buffer. -/
structure Chunk where
  bytes : List UInt8
  nonempty : bytes ≠ []
  length_le : bytes.length ≤ 128
  deriving DecidableEq, Repr

/-- What can be read from a peer: chunks, and then the end of the stream or an error. -/
structure Stream where
  chunks : List (Future Chunk)
  finish : Attempt Unit

/-- What the outside world does during one run of a probe. -/
structure World (F : Type) where
  /-- `Utc::now()` when the result is made. -/
  now : DateTime
  /-- `start.elapsed()` when the probe is over, in milliseconds. -/
  elapsedMs : F
  /-- `TcpStream::connect` to a target. -/
  connect : String → Attempt Unit
  /-- What the peer of that connection sends. -/
  stream : Stream
  /-- Whether the HTTP client could be built. -/
  httpClient : Except String Unit
  /-- The status of the response to a GET of a URL. -/
  get : String → Attempt UInt16
  /-- `lookup_host` of a target. -/
  lookupHost : String → Attempt (List IpAddr)
  /-- `UdpSocket::bind` to a local address. -/
  bind : String → Except String Unit
  /-- `UdpSocket::connect` to a resolved address. -/
  udpConnect : IpAddr → Except String Unit
  /-- `UdpSocket::send`. -/
  udpSend : List UInt8 → Except String Unit
  /-- `UdpSocket::recv`: the number of bytes. -/
  udpRecv : Attempt ℕ
  /-- Whether the resolver for a nameserver could be built. -/
  buildResolver : SocketAddr → Except String Unit
  /-- What that resolver answers. -/
  lookupIp : String → Attempt (List IpAddr)
  /-- Whether the TLS configuration could be built. -/
  tlsConfig : Except String Unit
  /-- Whether a text is a valid TLS server name. -/
  isServerName : String → Bool
  /-- A TLS handshake: the leaf certificate that the peer presents, if any. -/
  handshake : Attempt (Option (List UInt8))
  /-- `notAfter` of a certificate, in seconds since the epoch. -/
  notAfter : List UInt8 → Except String ℤ
  /-- `Utc::now()` when the certificate is judged. -/
  judgedAt : DateTime

/-- `MAX_GREETING_BYTES`. -/
def MAX_GREETING_BYTES : ℕ := 512

/-- The bytes of a greeting, as text. -/
def greetingText (collected : List UInt8) : String :=
  fromUtf8Lossy (collected.take MAX_GREETING_BYTES)

/-- The loop of `read_greeting_line`, which stops at a line ending, at the end of the stream, or at
the limit. -/
def readGreeting (finish : Attempt Unit) (collected : List UInt8) :
    List (Future Chunk) → Attempt String
  | [] => do
    finish
    pure (greetingText collected)
  | read :: chunks => do
    let chunk ← (read : Future Chunk)
    let collected := collected ++ chunk.bytes
    -- the whole of what was collected is searched, not the last chunk
    if 0x0A ∈ collected ∨ MAX_GREETING_BYTES ≤ collected.length then pure (greetingText collected)
    else readGreeting finish collected chunks

/-- `read_greeting_line`. -/
def readGreetingLine (stream : Stream) : Attempt String :=
  readGreeting stream.finish [] stream.chunks

/-- `with_probe_timeout`. -/
def withProbeTimeout {α : Type} (duration : Duration) (timeoutMsg : String) (fut : Attempt α) :
    Future (Except String α) := do
  -- the future is polled before the timer, so it wins a tie
  match ← Future.timeout duration.asMillis fut.run with
  | some outcome => pure outcome
  | none => pure (.error timeoutMsg)

/-- `split_host_port`: the brackets of an IPv6 literal are not part of the host. -/
def splitHostPort (target : String) : Option (String × UInt16) := do
  let (host, port) ← rsplitOnce target ':'
  let host := (stripPrefix host '[').getD host
  let host := (stripSuffix host ']').getD host
  if host = "" then none
  else (parseUnsigned 0xFFFF port).map fun port => (host, .ofNat port)

example : splitHostPort "[2001:db8::1]:993" = some ("2001:db8::1", 993) := by decide

end Huginn.Probes
