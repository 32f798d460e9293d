import Huginn.Core.Load

/-!
# What a loaded config satisfies

`AppConfig.validate` accepts exactly the configs that are `Valid` (`validate_eq_ok_iff`), and what
`loadWithWarnings` returns is valid, with names and targets free of control characters
(`loadWithWarnings_ok`).
-/

namespace Huginn

variable {F : Type} [F64 F]

/-! ### Checks in sequence -/

theorem bind_eq_ok_iff {ε α β : Type} {x : Except ε α} {f : α → Except ε β} {b : β} :
    (x >>= f) = .ok b ↔ ∃ a, x = .ok a ∧ f a = .ok b := by
  cases x with
  | error e =>
    constructor
    · intro h
      cases h
    · rintro ⟨_, h, _⟩
      cases h
  | ok a =>
    constructor
    · intro h
      exact ⟨a, rfl, h⟩
    · rintro ⟨a', ha, h⟩
      obtain rfl := Except.ok.inj ha
      exact h

@[simp]
theorem require_eq_ok_iff {p : Prop} [Decidable p] {message : String} :
    require p message = .ok () ↔ p := by
  unfold require
  split_ifs with h
  · simp [h]
  · simp [h]

theorem requireSome_eq_ok_iff {α : Type} {x : Option α} {message : String} {a : α} :
    requireSome x message = .ok a ↔ x = some a := by
  cases x with
  | none => simp [requireSome]
  | some b => simp [requireSome]

theorem checkSome_eq_ok_iff {α : Type} {x : Option α} {check : α → Except HuginError Unit} :
    checkSome x check = .ok () ↔ ∀ a ∈ x, check a = .ok () := by
  cases x with
  | none => simp [checkSome]
  | some a => simp [checkSome]

/-- A check before others. -/
theorem seq_eq_ok_iff {x : Except HuginError Unit} {f : Unit → Except HuginError Unit} :
    (x >>= f) = .ok () ↔ x = .ok () ∧ f () = .ok () := by
  rw [bind_eq_ok_iff]
  constructor
  · rintro ⟨⟨⟩, hx, hf⟩
    exact ⟨hx, hf⟩
  · rintro ⟨hx, hf⟩
    exact ⟨(), hx, hf⟩

/-! ### The sections -/

/-- The `influx` section can be used. -/
structure InfluxConfig.Valid (c : InfluxConfig) : Prop where
  url_ne : c.url ≠ ""
  url_absolute : startsWith c.url "http://" ∨ startsWith c.url "https://"
  org_ne : c.org ≠ ""
  bucket_ne : c.bucket ≠ ""
  batchSize_ne : c.batchSize ≠ 0
  batchTimeoutMs_ne : c.batchTimeoutMs ≠ 0
  maxBufferedBytes_ne : c.maxBufferedBytes ≠ 0
  retryInitialBackoffMs_ne : c.retryInitialBackoffMs ≠ 0
  retryMaxBackoffMs_ne : c.retryMaxBackoffMs ≠ 0
  backoff_le : c.retryInitialBackoffMs ≤ c.retryMaxBackoffMs

theorem InfluxConfig.validate_eq_ok_iff (c : InfluxConfig) : c.validate = .ok () ↔ c.Valid := by
  rw [validate]
  simp only [seq_eq_ok_iff, require_eq_ok_iff]
  constructor
  · rintro ⟨h1, h2, h3, h4, h5, h6, h7, h8, h9, h10⟩
    exact ⟨h1, h2, h3, h4, h5, h6, h7, h8, h9, h10⟩
  · rintro ⟨h1, h2, h3, h4, h5, h6, h7, h8, h9, h10⟩
    exact ⟨h1, h2, h3, h4, h5, h6, h7, h8, h9, h10⟩

/-- The listeners can all be bound and reached. -/
structure AppConfig.ListenersValid (cfg : AppConfig F) (uiAddr metricsAddr : IpAddr) : Prop where
  ui_bind : IpAddr.parse cfg.ui.bind = some uiAddr
  metrics_bind : IpAddr.parse cfg.metrics.bind = some metricsAddr
  ui_port : ¬ (cfg.ui.enabled ∧ cfg.ui.port = 0)
  metrics_port : ¬ (cfg.metrics.enabled ∧ cfg.metrics.port = 0)
  apiKeyFile_ne : cfg.metrics.apiKeyFile ≠ some ""
  ui_metrics : ¬ (cfg.ui.enabled ∧ cfg.metrics.enabled ∧ addressesContend uiAddr metricsAddr ∧
    cfg.ui.port = cfg.metrics.port)
  ui_health : ¬ (cfg.health.enabled ∧ cfg.ui.enabled ∧ cfg.ui.port = cfg.health.port ∧
    addressesContend uiAddr HEALTH_ADDR)
  metrics_health : ¬ (cfg.health.enabled ∧ cfg.metrics.enabled ∧
    cfg.metrics.port = cfg.health.port ∧ addressesContend metricsAddr HEALTH_ADDR)

omit [F64 F] in
theorem AppConfig.validateListeners_eq_ok_iff (cfg : AppConfig F) :
    cfg.validateListeners = .ok () ↔
      ∃ uiAddr metricsAddr, cfg.ListenersValid uiAddr metricsAddr := by
  rw [validateListeners]
  simp only [bind_eq_ok_iff (x := requireSome _ _), requireSome_eq_ok_iff]
  constructor
  · rintro ⟨uiAddr, hui, metricsAddr, hmetrics, h⟩
    refine ⟨uiAddr, metricsAddr, ?_⟩
    simp only [validatePort, validateHealth, seq_eq_ok_iff, require_eq_ok_iff] at h
    obtain ⟨h1, h2, h3, h4, h5, h6⟩ := h
    exact ⟨hui, hmetrics, h1, h2, h3, h4, h5, h6⟩
  · rintro ⟨uiAddr, metricsAddr, hui, hmetrics, h1, h2, h3, h4, h5, h6⟩
    refine ⟨uiAddr, hui, metricsAddr, hmetrics, ?_⟩
    simp only [validatePort, validateHealth, seq_eq_ok_iff, require_eq_ok_iff]
    exact ⟨h1, h2, h3, h4, h5, h6⟩

/-- The target has the shape that the probe type needs. -/
def ProbeConfig.TargetValid (p : ProbeConfig F) : Prop :=
  match p.probeType with
  | .dns => (SocketAddr.parse p.target).isSome
  | .tcp | .smtp | .imap | .udp | .tls => hasPortSuffix p.target
  | .http | .https => startsWith p.target "http://" ∨ startsWith p.target "https://"

/-- A probe can be run. -/
structure ProbeConfig.Valid (p : ProbeConfig F) : Prop where
  name_ne : p.name ≠ ""
  target_ne : p.target ≠ ""
  intervalSecs_ne : p.intervalSecs ≠ 0
  timeoutSecs_ne : p.timeoutSecs ≠ 0
  tlsExpiryFailDays : ∀ days ∈ p.tlsExpiryFailDays,
    F64.isFinite days ∧ ¬ F64.lt days (F64.ofInt 0)
  expectedStatus : ∀ status ∈ p.expectedStatus, 100 ≤ status ∧ status ≤ 599
  dnsExpectedIp : ∀ ip ∈ p.dnsExpectedIp, (IpAddr.parse ip).isSome
  target : p.TargetValid

omit [F64 F] in
theorem ProbeConfig.validateTarget_eq_ok_iff (p : ProbeConfig F) :
    p.validateTarget = .ok () ↔ p.TargetValid := by
  unfold validateTarget TargetValid
  cases p.probeType <;> exact require_eq_ok_iff

theorem ProbeConfig.validate_eq_ok_iff (seen : List String) (p : ProbeConfig F) :
    p.validate seen = .ok () ↔ p.Valid ∧ p.name ∉ seen := by
  rw [validate]
  simp only [seq_eq_ok_iff, require_eq_ok_iff, checkSome_eq_ok_iff,
    validateTarget_eq_ok_iff]
  constructor
  · rintro ⟨hname, hseen, htarget, hinterval, htimeout, hdays, hstatus, hip, hshape⟩
    exact ⟨⟨hname, htarget, hinterval, htimeout, hdays, hstatus, hip, hshape⟩, hseen⟩
  · rintro ⟨⟨hname, htarget, hinterval, htimeout, hdays, hstatus, hip, hshape⟩, hseen⟩
    exact ⟨hname, hseen, htarget, hinterval, htimeout, hdays, hstatus, hip, hshape⟩

/-- The loop over the probes: all are valid, and no name occurs twice or was seen before. -/
theorem validateProbes_eq_ok_iff (seen : List String) (probes : List (ProbeConfig F)) :
    validateProbes seen probes = .ok () ↔
      (∀ p ∈ probes, p.Valid ∧ p.name ∉ seen) ∧ (probes.map ProbeConfig.name).Nodup := by
  induction probes generalizing seen with
  | nil => simp [validateProbes]
  | cons p probes ih =>
    rw [validateProbes, seq_eq_ok_iff]
    simp only [ih, ProbeConfig.validate_eq_ok_iff, List.mem_cons, not_or, List.map_cons,
      List.nodup_cons, List.mem_map, not_exists, not_and]
    constructor
    · rintro ⟨hp, hrest, hnodup⟩
      refine ⟨?_, fun q hq heq => (hrest q hq).2.1 heq, hnodup⟩
      rintro q (rfl | hq)
      · exact hp
      · exact ⟨(hrest q hq).1, (hrest q hq).2.2⟩
    · rintro ⟨hall, hnew, hnodup⟩
      refine ⟨hall p (.inl rfl), fun q hq => ⟨(hall q (.inr hq)).1, ?_, (hall q (.inr hq)).2⟩,
        hnodup⟩
      exact fun heq => hnew q hq heq

/-- A config that can be run. -/
structure AppConfig.Valid (cfg : AppConfig F) : Prop where
  influx : cfg.influx.Valid
  eventHubCapacity_ne : cfg.eventHubCapacity ≠ 0
  listeners : ∃ uiAddr metricsAddr, cfg.ListenersValid uiAddr metricsAddr
  probes : ∀ p ∈ cfg.probes, p.Valid
  names : (cfg.probes.map ProbeConfig.name).Nodup

/-- **The checks accept exactly the valid configs.** -/
theorem AppConfig.validate_eq_ok_iff (cfg : AppConfig F) : cfg.validate = .ok () ↔ cfg.Valid := by
  rw [validate]
  simp only [seq_eq_ok_iff, InfluxConfig.validate_eq_ok_iff, require_eq_ok_iff,
    validateListeners_eq_ok_iff, validateProbes_eq_ok_iff]
  constructor
  · rintro ⟨hinflux, hhub, hlisteners, hprobes, hnames⟩
    exact ⟨hinflux, hhub, hlisteners, fun p hp => (hprobes p hp).1, hnames⟩
  · rintro ⟨hinflux, hhub, hlisteners, hprobes, hnames⟩
    exact ⟨hinflux, hhub, hlisteners, fun p hp => ⟨hprobes p hp, List.not_mem_nil⟩, hnames⟩

/-! ### Control characters -/

theorem escapeNamed_fst (field value : String) :
    (escapeNamed field value).1 = escapeControlChars value := by
  unfold escapeNamed
  by_cases h : escapeControlChars value = value
  · simp [h]
  · simp [h]

/-- The strings that an operator chooses and the program publishes have no control characters. -/
structure ProbeConfig.ControlFree (p : ProbeConfig F) : Prop where
  name : Huginn.ControlFree p.name
  target : Huginn.ControlFree p.target

omit [F64 F] in
theorem ProbeConfig.controlFree_escape (p : ProbeConfig F) :
    p.escapeControlCharsInNames.1.ControlFree := by
  constructor
  · show Huginn.ControlFree (escapeNamed "name" p.name).1
    rw [escapeNamed_fst]
    exact controlFree_escapeControlChars _
  · show Huginn.ControlFree (escapeNamed "target" p.target).1
    rw [escapeNamed_fst]
    exact controlFree_escapeControlChars _

section Load

variable {readToString : String → Except String String}
  {fromStr : String → Except String (AppConfig F)} {env : String → EnvVar} {path : String}

/-- **What is loaded is valid, and free of control characters where it is published.** -/
theorem loadWithWarnings_ok {cfg : AppConfig F} {warnings : List String}
    (h : loadWithWarnings readToString fromStr env path = .ok (cfg, warnings)) :
    cfg.Valid ∧ ∀ p ∈ cfg.probes, p.ControlFree := by
  rw [loadWithWarnings, bind_eq_ok_iff] at h
  obtain ⟨content, -, h⟩ := h
  rw [bind_eq_ok_iff] at h
  obtain ⟨parsed, -, h⟩ := h
  rw [bind_eq_ok_iff] at h
  obtain ⟨⟨⟩, hvalid, h⟩ := h
  obtain ⟨rfl, -⟩ := Prod.mk.inj (Except.ok.inj h)
  refine ⟨(AppConfig.validate_eq_ok_iff _).mp hvalid, fun p hp => ?_⟩
  obtain ⟨q, -, rfl⟩ := List.mem_map.mp hp
  exact q.controlFree_escape

end Load

end Huginn
