import Huginn.Core.Correct.Applicable
import Huginn.Probes.Executors

/-!
# What the executors give

Whatever the outside world does, a result carries the name, type and target of its probe, an error
without control characters, and no reading but the days until the certificate expires
(`execute_resultOf`). A key that does not apply to the type makes no difference
(`execute_dropInapplicable`).
-/

namespace Huginn.Probes

open Future

variable {F : Type}

/-- A result of the probe `cfg`. -/
structure ResultOf (cfg : ProbeConfig F) (r : ProbeResult F) : Prop where
  probeName : r.probeName = cfg.name
  probeType : r.probeType = cfg.probeType.display
  target : r.target = cfg.target
  error : ∀ err ∈ r.error, ControlFree err
  metrics : ∀ key ∈ r.metrics.keys, key = TLS_CERT_EXPIRY_DAYS

section Results

variable {w : World F} {cfg : ProbeConfig F} {probeType : String}

theorem resultOf_up (h : probeType = cfg.probeType.display) (statusCode : Option UInt16) :
    ResultOf cfg (up w cfg probeType statusCode) where
  probeName := rfl
  probeType := h
  target := rfl
  error := fun _ herr => nomatch herr
  metrics := fun _ hkey => nomatch hkey

/-- A failure, after whatever time: its message is escaped by the constructor. -/
theorem resultOf_failure (h : probeType = cfg.probeType.display) (now : DateTime) (ms : F)
    (message : String) : ResultOf cfg (.failure now cfg.name probeType cfg.target ms message) where
  probeName := rfl
  probeType := h
  target := rfl
  error := by
    intro err herr
    obtain rfl := Option.some.inj herr
    exact controlFree_escapeControlChars message
  metrics := fun _ hkey => nomatch hkey

theorem ResultOf.withMetric {r : ProbeResult F} (hr : ResultOf cfg r) (value : F) :
    ResultOf cfg (r.withMetric TLS_CERT_EXPIRY_DAYS value) where
  probeName := hr.probeName
  probeType := hr.probeType
  target := hr.target
  error := hr.error
  metrics := by
    intro key hkey
    rcases BTreeMap.mem_keys_insert.mp hkey with rfl | hkey
    · rfl
    · exact hr.metrics key hkey

end Results

section Executors

variable (w : World F) {cfg : ProbeConfig F}

theorem Tcp.resultOf (h : cfg.probeType = .tcp) : (Tcp.probe w cfg).All (ResultOf cfg) := by
  have htype : "tcp" = cfg.probeType.display := by rw [h]; rfl
  refine all_bind_of_forall fun outcome => ?_
  cases outcome with
  | ok => exact all_pure (resultOf_up htype none)
  | error msg => exact all_pure (resultOf_failure htype _ _ msg)

theorem greetingProbe_resultOf {probeType : String} (htype : probeType = cfg.probeType.display)
    (expected emptyMessage unexpected : String) :
    (greetingProbe probeType expected emptyMessage unexpected w cfg).All (ResultOf cfg) := by
  refine all_bind_of_forall fun outcome => ?_
  cases outcome with
  | ok greeting =>
    show All _ (if _ then _ else if _ then _ else _)
    split_ifs
    · exact all_pure (resultOf_up htype none)
    · exact all_pure (resultOf_failure htype _ _ emptyMessage)
    · exact all_pure (resultOf_failure htype _ _ _)
  | error msg => exact all_pure (resultOf_failure htype _ _ msg)

theorem Udp.resultOf (h : cfg.probeType = .udp) : (Udp.probe w cfg).All (ResultOf cfg) := by
  have htype : "udp" = cfg.probeType.display := by rw [h]; rfl
  have hdown := fun msg => resultOf_failure htype w.now w.elapsedMs msg
  refine all_bind_of_forall fun addrs => ?_
  rcases addrs with msg | (_ | ⟨addr, _⟩)
  · exact all_pure (hdown msg)
  · exact all_pure (hdown _)
  · dsimp only
    cases sendQuery w addr with
    | error msg => exact all_pure (hdown msg)
    | ok =>
      refine all_bind_of_forall fun received => ?_
      cases received with
      | error msg => exact all_pure (hdown msg)
      | ok n =>
        show All _ (if _ then _ else _)
        split_ifs
        · exact all_pure (resultOf_up htype none)
        · exact all_pure (hdown _)

theorem Dns.resultOf_verdict (h : cfg.probeType = .dns) (resolved : List IpAddr) :
    ResultOf cfg (Dns.verdict w cfg resolved) := by
  have htype : "dns" = cfg.probeType.display := by rw [h]; rfl
  unfold Dns.verdict
  cases cfg.dnsExpectedIp with
  | none => exact resultOf_up htype none
  | some expected =>
    dsimp only
    cases IpAddr.parse expected with
    | none => exact resultOf_failure htype _ _ _
    | some expectedIp =>
      show ResultOf cfg (if _ then _ else _)
      split_ifs
      · exact resultOf_up htype none
      · exact resultOf_failure htype _ _ _

variable [F64 F]

theorem HttpProbe.resultOf : (HttpProbe.probe w cfg).All (ResultOf cfg) := by
  unfold HttpProbe.probe
  cases w.httpClient with
  | error e => exact all_pure (resultOf_failure rfl _ _ _)
  | ok =>
    refine all_bind_of_forall fun outcome => ?_
    cases outcome with
    | ok status =>
      show All _ (if _ then _ else _)
      split_ifs
      · exact all_pure (resultOf_up rfl (some status))
      · exact all_pure (resultOf_failure rfl _ _ _)
    | error msg => exact all_pure (resultOf_failure rfl _ _ msg)

theorem Dns.resultOf (h : cfg.probeType = .dns) : (Dns.probe w cfg).All (ResultOf cfg) := by
  have htype : "dns" = cfg.probeType.display := by rw [h]; rfl
  unfold Dns.probe
  cases SocketAddr.parse cfg.target with
  | none => exact all_pure (resultOf_failure htype _ _ _)
  | some nameserver =>
    dsimp only
    cases w.buildResolver nameserver with
    | error e => exact all_pure (resultOf_failure htype _ _ _)
    | ok =>
      refine all_bind_of_forall fun outcome => ?_
      cases outcome with
      | error msg => exact all_pure (resultOf_failure htype _ _ msg)
      | ok resolved => exact all_pure (Dns.resultOf_verdict w h resolved)

theorem Tls.resultOf_verdict (h : cfg.probeType = .tls) (der : List UInt8) :
    ResultOf cfg (Tls.verdict w cfg der) := by
  have htype : "tls" = cfg.probeType.display := by rw [h]; rfl
  unfold Tls.verdict
  cases certExpiryDays w der with
  | error e => exact resultOf_failure htype _ _ e
  | ok days =>
    dsimp only
    cases expiryVerdict days (cfg.tlsExpiryFailDays.getD (F64.ofInt 0)) with
    | none => exact (resultOf_up htype none).withMetric days
    | some why => exact (resultOf_failure htype _ _ why).withMetric days

theorem TlsProbe.resultOf (h : cfg.probeType = .tls) :
    (TlsProbe.probe w cfg).All (ResultOf cfg) := by
  have htype : "tls" = cfg.probeType.display := by rw [h]; rfl
  unfold TlsProbe.probe
  cases w.tlsConfig with
  | error e => exact all_pure (resultOf_failure htype _ _ _)
  | ok =>
    refine all_bind_of_forall fun outcome => ?_
    cases outcome with
    | error msg => exact all_pure (resultOf_failure htype _ _ msg)
    | ok der => exact all_pure (Tls.resultOf_verdict w h der)

/-- **What a probe gives is a result of that probe.** -/
theorem execute_resultOf : (execute w cfg).All (ResultOf cfg) := by
  unfold execute
  cases h : cfg.probeType with
  | tcp => exact Tcp.resultOf w h
  | http => exact HttpProbe.resultOf w
  | https => exact HttpProbe.resultOf w
  | smtp => exact greetingProbe_resultOf w (by rw [h]; rfl) _ _ _
  | imap => exact greetingProbe_resultOf w (by rw [h]; rfl) _ _ _
  | udp => exact Udp.resultOf w h
  | dns => exact Dns.resultOf w h
  | tls => exact TlsProbe.resultOf w h

end Executors

/-- A published result is a result of a probe of the config. -/
theorem Published.resultOf [F64 F] {cfg : AppConfig F} {r : ProbeResult F} (h : Published cfg r) :
    ∃ p ∈ cfg.probes, ResultOf p r := by
  obtain ⟨p, hp, w, t, hready⟩ := h
  exact ⟨p, hp, execute_resultOf w t r hready⟩

/-- An executor does not look at the keys that belong to other types. -/
theorem execute_dropInapplicable [F64 F] (w : World F) (cfg : ProbeConfig F) :
    execute w cfg.dropInapplicable = execute w cfg := by
  obtain ⟨name, probeType, target, interval, timeout, status, query, ip, days⟩ := cfg
  cases probeType <;> rfl

end Huginn.Probes
