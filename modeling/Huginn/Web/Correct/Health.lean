import Huginn.Core.Correct.Text
import Huginn.Web.Health

/-!
# What the health check decides on

The verdict is taken on one `read`, and a status line may need more than one. So the check agrees
with what the listener answered exactly when the status line is in the first read, as far as it is
looked at, or there is no 200 to be found (`checkHealth_iff`).
-/

namespace Huginn.Web

open Future

/-- The stream begins with the status line of a 200. -/
def Answers200 (stream : List UInt8) : Prop :=
  asciiBytes "HTTP/1.0 200" <+: stream ∨ asciiBytes "HTTP/1.1 200" <+: stream

/-- A way in which a response is cut into segments, each with the time after which it is there. -/
abbrev ResponseCut := List (ℕ × Segment)

/-- The bytes of the response. -/
def responseBytes (cut : ResponseCut) : List UInt8 := cut.flatMap fun s => s.2.bytes

/-- The bytes that the first read returns. -/
def firstRead : ResponseCut → List UInt8
  | [] => []
  | s :: _ => s.2.bytes.take HEALTH_BUF

/-- The listener accepts the connection and the request, its response is cut in this way, and its
first segment is there in time. -/
structure Responds (peer : HealthPeer) (port : UInt16) (timeout : Duration) (cut : ResponseCut) :
    Prop where
  segments : peer.segments = cut.map fun s => .ready s.1 s.2
  inTime : ∃ t u, (peer.connect HEALTH_BIND port).run = .ready t (.ok ()) ∧
    (peer.writeAll healthRequest).run = .ready u (.ok ()) ∧
    ∀ s ∈ cut.head?, t + u + s.1 ≤ timeout.asMillis

theorem ascii_status : Ascii "HTTP/1.0 200" ∧ Ascii "HTTP/1.1 200" := by decide

/-- The status line is looked for in the text as it is in the bytes. -/
theorem answers200_iff (bytes : List UInt8) :
    (startsWith (fromUtf8Lossy bytes) "HTTP/1.0 200" = true ∨
      startsWith (fromUtf8Lossy bytes) "HTTP/1.1 200" = true) ↔ Answers200 bytes := by
  rw [startsWith_fromUtf8Lossy ascii_status.1, startsWith_fromUtf8Lossy ascii_status.2]
  rfl

/-- As far as the check looks at it, a status line has twelve bytes. -/
theorem Answers200.length_le {bytes : List UInt8} (h : Answers200 bytes) : 12 ≤ bytes.length := by
  rcases h with h | h
  · exact h.length_le
  · exact h.length_le

/-- A beginning of at least twelve bytes decides. -/
theorem answers200_iff_of_prefix {start stream : List UInt8} (hpre : start <+: stream)
    (hlength : 12 ≤ start.length) : Answers200 start ↔ Answers200 stream := by
  have hstatus : ∀ status : List UInt8, status.length = 12 →
      (status <+: start ↔ status <+: stream) := by
    intro status h12
    constructor
    · exact fun h => h.trans hpre
    · exact fun h => List.prefix_of_prefix_length_le h hpre (h12.trans_le hlength)
  exact or_congr (hstatus _ (by decide)) (hstatus _ (by decide))

theorem prefix_firstRead (cut : ResponseCut) : firstRead cut <+: responseBytes cut := by
  cases cut with
  | nil => exact List.prefix_rfl
  | cons s cut =>
    rw [firstRead, responseBytes, List.flatMap_cons]
    exact (List.take_prefix _ _).trans (List.prefix_append _ _)

variable {peer : HealthPeer} {port : UInt16} {timeout : Duration} {cut : ResponseCut}

/-- What the check is told in time. -/
theorem Responds.timeout_askHealth (h : Responds peer port timeout cut) (hne : cut ≠ []) :
    ∃ t, Future.timeout timeout.asMillis (askHealth peer port).run =
      .ready t (some (.ok (fromUtf8Lossy (firstRead cut)))) := by
  obtain ⟨t, u, hconnect, hwrite, htime⟩ := h.inTime
  obtain ⟨s, rest, rfl⟩ := List.exists_cons_of_ne_nil hne
  have hread : (peer.read HEALTH_BUF).run = .ready s.1 (.ok (firstRead (s :: rest))) := by
    rw [HealthPeer.read, h.segments]
    rfl
  have hask : (askHealth peer port).run =
      .ready (t + (u + s.1)) (.ok (fromUtf8Lossy (firstRead (s :: rest)))) := by
    rw [askHealth, ExceptT.run_bind, hconnect, bind_ready]
    show (((peer.writeAll healthRequest).run >>= _).delay t) = _
    rw [hwrite, bind_ready]
    show ((((peer.read HEALTH_BUF).run >>= _).delay u).delay t) = _
    rw [hread, bind_ready]
    rfl
  have hle := htime s rfl
  refine ⟨t + (u + s.1), ?_⟩
  rw [hask]
  exact if_pos (by omega)

/-- The check passes when the first read begins with the status line. -/
theorem Responds.checkHealth_ok_iff (h : Responds peer port timeout cut) (hne : cut ≠ []) :
    (∃ t, checkHealth peer port timeout = .ready t (.ok ())) ↔ Answers200 (firstRead cut) := by
  obtain ⟨t, hask⟩ := h.timeout_askHealth hne
  rw [checkHealth, hask, bind_ready]
  dsimp only
  rw [← answers200_iff]
  split_ifs with hstatus
  · exact iff_of_true ⟨t, rfl⟩ hstatus
  · refine iff_of_false ?_ hstatus
    rintro ⟨u, heq⟩
    cases heq

/-- **The check gives the verdict that the listener gave exactly when its first read has the twelve
bytes that it looks at, or the answer is not a 200.** -/
theorem checkHealth_iff {peer : HealthPeer} {port : UInt16} {timeout : Duration}
    {cut : ResponseCut} (h : Responds peer port timeout cut)
    (hlength : 12 ≤ (responseBytes cut).length) :
    ((∃ t, checkHealth peer port timeout = .ready t (.ok ())) ↔ Answers200 (responseBytes cut)) ↔
      (Answers200 (responseBytes cut) → 12 ≤ (firstRead cut).length) := by
  have hne : cut ≠ [] := by
    rintro rfl
    exact absurd hlength (by decide)
  rw [h.checkHealth_ok_iff hne]
  constructor
  · exact fun hagree hanswer => (hagree.mpr hanswer).length_le
  · intro hread
    by_cases h12 : 12 ≤ (firstRead cut).length
    · exact answers200_iff_of_prefix (prefix_firstRead cut) h12
    · have hfirst : ¬ Answers200 (firstRead cut) := fun h200 => h12 h200.length_le
      have hstream : ¬ Answers200 (responseBytes cut) := fun h200 => h12 (hread h200)
      exact iff_of_false hfirst hstream

/-- A listener on the loopback interface that answers with these segments. -/
def listenerOf (cut : ResponseCut) : HealthPeer where
  connect _ _ := ExceptT.mk (.ready 0 (.ok ()))
  writeAll _ := ExceptT.mk (.ready 0 (.ok ()))
  segments := cut.map fun s => .ready s.1 s.2
  finish := ExceptT.mk (.ready 0 (.ok ()))

theorem responds_listenerOf {cut : ResponseCut} (h : ∀ s ∈ cut.head?, s.1 ≤ 5000) :
    Responds (listenerOf cut) 9115 HEALTHCHECK_TIMEOUT cut := by
  refine ⟨rfl, 0, 0, rfl, rfl, fun s hs => ?_⟩
  have := h s hs
  show 0 + 0 + s.1 ≤ 5 * 1000000000 / 1000000
  omega

/-- A response in one segment, and one whose status line arrives in two. -/
def wholeResponse : ResponseCut := [(1, ⟨asciiBytes "HTTP/1.0 200 OK\r\n\r\nOK", by decide⟩)]

def splitResponse : ResponseCut :=
  [(1, ⟨asciiBytes "HTTP/1.0", by decide⟩), (1, ⟨asciiBytes " 200 OK\r\n\r\nOK", by decide⟩)]

theorem checkHealth_iff_whole :
    (∃ t, checkHealth (listenerOf wholeResponse) 9115 HEALTHCHECK_TIMEOUT = .ready t (.ok ())) ↔
      Answers200 (responseBytes wholeResponse) :=
  (checkHealth_iff (responds_listenerOf (by decide)) (by decide)).mpr fun _ => by decide

theorem checkHealth_fails_on_split :
    Responds (listenerOf splitResponse) 9115 HEALTHCHECK_TIMEOUT splitResponse ∧
      12 ≤ (responseBytes splitResponse).length ∧ Answers200 (responseBytes splitResponse) ∧
      ¬ ∃ t, checkHealth (listenerOf splitResponse) 9115 HEALTHCHECK_TIMEOUT =
        .ready t (.ok ()) := by
  have hresponds : Responds (listenerOf splitResponse) 9115 HEALTHCHECK_TIMEOUT splitResponse :=
    responds_listenerOf (by decide)
  refine ⟨hresponds, by decide, .inl (by decide), ?_⟩
  rw [hresponds.checkHealth_ok_iff (by decide)]
  exact fun h => absurd h.length_le (by decide)

end Huginn.Web
