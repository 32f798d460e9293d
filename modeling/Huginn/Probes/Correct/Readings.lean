import Huginn.Probes.Correct.Executors

/-!
# The readings that a type of probe has

Only an HTTP probe has a status to report, and only a TLS probe has days to count
(`execute_readings`).
-/

namespace Huginn.Probes

open Future

variable {F : Type}

/-- Neither a status nor a reading of its own. -/
structure Bare (r : ProbeResult F) : Prop where
  statusCode : r.statusCode = none
  metrics : r.metrics = .empty

/-- What a result has beyond the verdict and the time, by the type of its probe. -/
structure Readings (cfg : ProbeConfig F) (r : ProbeResult F) : Prop where
  status : r.statusCode ≠ none → cfg.probeType = .http ∨ cfg.probeType = .https
  days : r.metrics.keys ≠ [] → cfg.probeType = .tls

theorem Bare.readings {r : ProbeResult F} (h : Bare r) (cfg : ProbeConfig F) :
    Readings cfg r where
  status hstatus := absurd h.statusCode hstatus
  days hdays := by
    rw [h.metrics] at hdays
    exact absurd rfl hdays

section Results

variable (w : World F) (cfg : ProbeConfig F) (probeType : String)

theorem bare_up : Bare (up w cfg probeType none) := ⟨rfl, rfl⟩

theorem bare_failure (now : DateTime) (name target : String) (ms : F) (message : String) :
    Bare (.failure now name probeType target ms message) := ⟨rfl, rfl⟩

end Results

section Executors

variable (w : World F) (cfg : ProbeConfig F)

theorem Tcp.bare : (Tcp.probe w cfg).All Bare := by
  refine all_bind_of_forall fun outcome => ?_
  cases outcome with
  | ok => exact all_pure (bare_up ..)
  | error msg => exact all_pure (bare_failure ..)

theorem greetingProbe_bare (probeType expected emptyMessage unexpected : String) :
    (greetingProbe probeType expected emptyMessage unexpected w cfg).All Bare := by
  refine all_bind_of_forall fun outcome => ?_
  cases outcome with
  | ok greeting =>
    show All _ (if _ then _ else if _ then _ else _)
    split_ifs
    · exact all_pure (bare_up ..)
    · exact all_pure (bare_failure ..)
    · exact all_pure (bare_failure ..)
  | error msg => exact all_pure (bare_failure ..)

theorem Udp.bare : (Udp.probe w cfg).All Bare := by
  refine all_bind_of_forall fun addrs => ?_
  rcases addrs with msg | (_ | ⟨addr, _⟩)
  · exact all_pure (bare_failure ..)
  · exact all_pure (bare_failure ..)
  · dsimp only
    cases sendQuery w addr with
    | error msg => exact all_pure (bare_failure ..)
    | ok =>
      refine all_bind_of_forall fun received => ?_
      cases received with
      | error msg => exact all_pure (bare_failure ..)
      | ok n =>
        show All _ (if _ then _ else _)
        split_ifs
        · exact all_pure (bare_up ..)
        · exact all_pure (bare_failure ..)

theorem Dns.bare_verdict (resolved : List IpAddr) : Bare (Dns.verdict w cfg resolved) := by
  unfold Dns.verdict
  cases cfg.dnsExpectedIp with
  | none => exact bare_up ..
  | some expected =>
    dsimp only
    cases IpAddr.parse expected with
    | none => exact bare_failure ..
    | some expectedIp =>
      show Bare (if _ then _ else _)
      split_ifs
      · exact bare_up ..
      · exact bare_failure ..

variable [F64 F]

theorem Dns.bare : (Dns.probe w cfg).All Bare := by
  unfold Dns.probe
  cases SocketAddr.parse cfg.target with
  | none => exact all_pure (bare_failure ..)
  | some nameserver =>
    dsimp only
    cases w.buildResolver nameserver with
    | error e => exact all_pure (bare_failure ..)
    | ok =>
      refine all_bind_of_forall fun outcome => ?_
      cases outcome with
      | error msg => exact all_pure (bare_failure ..)
      | ok resolved => exact all_pure (Dns.bare_verdict w cfg resolved)

variable {cfg}

/-- An HTTP probe has a status at most. -/
theorem HttpProbe.readings (h : cfg.probeType = .http ∨ cfg.probeType = .https) :
    (HttpProbe.probe w cfg).All (Readings cfg) := by
  have hdown := fun now ms message =>
    (bare_failure cfg.probeType.display now cfg.name cfg.target ms message).readings cfg
  unfold HttpProbe.probe
  cases w.httpClient with
  | error e => exact all_pure (hdown ..)
  | ok =>
    refine all_bind_of_forall fun outcome => ?_
    cases outcome with
    | ok status =>
      show All _ (if _ then _ else _)
      split_ifs
      · exact all_pure ⟨fun _ => h, fun hdays => absurd rfl hdays⟩
      · exact all_pure (hdown ..)
    | error msg => exact all_pure (hdown ..)

theorem TlsProbe.statusCode : (TlsProbe.probe w cfg).All fun r => r.statusCode = none := by
  unfold TlsProbe.probe
  cases w.tlsConfig with
  | error e => exact all_pure rfl
  | ok =>
    refine all_bind_of_forall fun outcome => ?_
    cases outcome with
    | error msg => exact all_pure rfl
    | ok der =>
      apply all_pure
      unfold Tls.verdict
      cases certExpiryDays w der with
      | error e => rfl
      | ok days =>
        dsimp only
        cases expiryVerdict days (cfg.tlsExpiryFailDays.getD (F64.ofInt 0)) <;> rfl

/-- **What a probe reports is what its type has to report.** -/
theorem execute_readings : (execute w cfg).All (Readings cfg) := by
  have hbare : ∀ {x : Future (ProbeResult F)}, x.All Bare → x.All (Readings cfg) :=
    fun hx t r hr => (hx t r hr).readings cfg
  unfold execute
  cases h : cfg.probeType with
  | tcp => exact hbare (Tcp.bare w cfg)
  | http => exact HttpProbe.readings w (.inl h)
  | https => exact HttpProbe.readings w (.inr h)
  | smtp | imap => exact hbare (greetingProbe_bare w cfg _ _ _ _)
  | udp => exact hbare (Udp.bare w cfg)
  | dns => exact hbare (Dns.bare w cfg)
  | tls =>
    intro t r hr
    exact ⟨fun hstatus => absurd (TlsProbe.statusCode w t r hr) hstatus, fun _ => h⟩

end Executors

end Huginn.Probes
