import Huginn.Core.Correct.Load

/-!
# Keys that do not belong to the type of a probe

A probe has four keys that mean something to some types only. The checks do not look at the type:
they take a key that does not apply for what its value is, and else as if it were not there
(`AppConfig.valid_iff_dropInapplicable`). So a config with such a key, the rest of which is
accepted, is refused exactly when the value is out of range (`AppConfig.inapplicable_refused_iff`).
-/

namespace Huginn

variable {F : Type}

/-! ### Which keys apply -/

/-- The keys that mean something to some types only. -/
inductive ProbeKey
  | expectedStatus
  | dnsQuery
  | dnsExpectedIp
  | tlsExpiryFailDays
  deriving DecidableEq, Repr

def ProbeKey.appliesTo : ProbeKey → ProbeType → Bool
  | .expectedStatus, t => t = .http || t = .https
  | .dnsQuery, t => t = .dns
  | .dnsExpectedIp, t => t = .dns
  | .tlsExpiryFailDays, t => t = .tls

namespace ProbeConfig

def isSet (p : ProbeConfig F) : ProbeKey → Bool
  | .expectedStatus => p.expectedStatus.isSome
  | .dnsQuery => p.dnsQuery.isSome
  | .dnsExpectedIp => p.dnsExpectedIp.isSome
  | .tlsExpiryFailDays => p.tlsExpiryFailDays.isSome

/-- The keys that are set belong to the type. -/
def KeysApply (p : ProbeConfig F) : Prop :=
  ∀ key, p.isSet key = true → key.appliesTo p.probeType = true

/-- A value where the key applies. -/
def applicable {α : Type} (p : ProbeConfig F) (key : ProbeKey) (value : Option α) : Option α :=
  if key.appliesTo p.probeType then value else none

/-- The probe without the keys that do not apply. -/
def dropInapplicable (p : ProbeConfig F) : ProbeConfig F :=
  { p with
    expectedStatus := p.applicable .expectedStatus p.expectedStatus
    dnsQuery := p.applicable .dnsQuery p.dnsQuery
    dnsExpectedIp := p.applicable .dnsExpectedIp p.dnsExpectedIp
    tlsExpiryFailDays := p.applicable .tlsExpiryFailDays p.tlsExpiryFailDays }

/-- The value of a key is none that could never be meant. -/
def InRange [F64 F] (p : ProbeConfig F) : ProbeKey → Prop
  | .expectedStatus => ∀ status ∈ p.expectedStatus, 100 ≤ status ∧ status ≤ 599
  | .dnsQuery => True
  | .dnsExpectedIp => ∀ ip ∈ p.dnsExpectedIp, (IpAddr.parse ip).isSome
  | .tlsExpiryFailDays => ∀ days ∈ p.tlsExpiryFailDays,
      F64.isFinite days ∧ ¬ F64.lt days (F64.ofInt 0)

end ProbeConfig

/-- The config without the keys that do not apply. -/
def AppConfig.dropInapplicable (cfg : AppConfig F) : AppConfig F :=
  { cfg with probes := cfg.probes.map ProbeConfig.dropInapplicable }

/-! ### What the checks make of them -/

theorem ProbeConfig.forall_mem_applicable_iff {α : Type} (p : ProbeConfig F) (key : ProbeKey)
    (value : Option α) (q : α → Prop) : (∀ a ∈ p.applicable key value, q a) ↔
      (key.appliesTo p.probeType = true → ∀ a ∈ value, q a) := by
  unfold applicable
  split_ifs with h
  · exact ⟨fun hq _ => hq, fun hq => hq h⟩
  · exact iff_of_true (fun a ha => by cases ha) fun happlies => absurd happlies h

variable [F64 F]

/-- A value counts on its own when the key applies, and when it does not. -/
theorem ProbeConfig.valid_iff_dropInapplicable (p : ProbeConfig F) :
    p.Valid ↔ p.dropInapplicable.Valid ∧
      ∀ key, key.appliesTo p.probeType = false → p.InRange key := by
  constructor
  · intro h
    have hrange : ∀ key, p.InRange key := by
      intro key
      cases key with
      | expectedStatus => exact h.expectedStatus
      | dnsQuery => exact trivial
      | dnsExpectedIp => exact h.dnsExpectedIp
      | tlsExpiryFailDays => exact h.tlsExpiryFailDays
    refine ⟨?_, fun key _ => hrange key⟩
    exact {
      name_ne := h.name_ne
      target_ne := h.target_ne
      intervalSecs_ne := h.intervalSecs_ne
      timeoutSecs_ne := h.timeoutSecs_ne
      tlsExpiryFailDays := (p.forall_mem_applicable_iff _ _ _).mpr fun _ => h.tlsExpiryFailDays
      expectedStatus := (p.forall_mem_applicable_iff _ _ _).mpr fun _ => h.expectedStatus
      dnsExpectedIp := (p.forall_mem_applicable_iff _ _ _).mpr fun _ => h.dnsExpectedIp
      target := h.target }
  · rintro ⟨h, hrange⟩
    have hkey : ∀ key, (key.appliesTo p.probeType = true → p.InRange key) → p.InRange key := by
      intro key happlies
      cases heq : key.appliesTo p.probeType with
      | false => exact hrange key heq
      | true => exact happlies heq
    exact {
      name_ne := h.name_ne
      target_ne := h.target_ne
      intervalSecs_ne := h.intervalSecs_ne
      timeoutSecs_ne := h.timeoutSecs_ne
      tlsExpiryFailDays := hkey .tlsExpiryFailDays
        ((p.forall_mem_applicable_iff _ _ _).mp h.tlsExpiryFailDays)
      expectedStatus := hkey .expectedStatus
        ((p.forall_mem_applicable_iff _ _ _).mp h.expectedStatus)
      dnsExpectedIp := hkey .dnsExpectedIp
        ((p.forall_mem_applicable_iff _ _ _).mp h.dnsExpectedIp)
      target := h.target }

namespace AppConfig

omit [F64 F] in
/-- The listeners have nothing to do with it. -/
theorem listenersValid_dropInapplicable {cfg : AppConfig F} {uiAddr metricsAddr : IpAddr} :
    cfg.dropInapplicable.ListenersValid uiAddr metricsAddr ↔
      cfg.ListenersValid uiAddr metricsAddr := by
  constructor
  · rintro ⟨h1, h2, h3, h4, h5, h6, h7, h8⟩
    exact ⟨h1, h2, h3, h4, h5, h6, h7, h8⟩
  · rintro ⟨h1, h2, h3, h4, h5, h6, h7, h8⟩
    exact ⟨h1, h2, h3, h4, h5, h6, h7, h8⟩

theorem valid_iff_dropInapplicable (cfg : AppConfig F) :
    cfg.Valid ↔ cfg.dropInapplicable.Valid ∧
      ∀ p ∈ cfg.probes, ∀ key, key.appliesTo p.probeType = false → p.InRange key := by
  have hnames : cfg.dropInapplicable.probes.map ProbeConfig.name =
      cfg.probes.map ProbeConfig.name := by
    unfold dropInapplicable
    rw [List.map_map]
    rfl
  have hlisteners : (∃ uiAddr metricsAddr, cfg.dropInapplicable.ListenersValid uiAddr metricsAddr) ↔
      ∃ uiAddr metricsAddr, cfg.ListenersValid uiAddr metricsAddr :=
    exists₂_congr fun _ _ => listenersValid_dropInapplicable
  constructor
  · intro h
    refine ⟨⟨h.influx, h.eventHubCapacity_ne, hlisteners.mpr h.listeners, ?_, ?_⟩, fun p hp => ?_⟩
    · intro q hq
      obtain ⟨p, hp, rfl⟩ := List.mem_map.mp hq
      exact (p.valid_iff_dropInapplicable.mp (h.probes p hp)).1
    · rw [hnames]
      exact h.names
    · exact (p.valid_iff_dropInapplicable.mp (h.probes p hp)).2
  · rintro ⟨h, hrange⟩
    refine ⟨h.influx, h.eventHubCapacity_ne, hlisteners.mp h.listeners, fun p hp => ?_, ?_⟩
    · have hdrop := h.probes _ (List.mem_map_of_mem hp)
      exact p.valid_iff_dropInapplicable.mpr ⟨hdrop, hrange p hp⟩
    · rw [← hnames]
      exact h.names

/-- The checks refuse a config that would be accepted without the keys that do not apply exactly
when the value of such a key is out of range. -/
theorem validate_ne_ok_iff {cfg : AppConfig F} (hrest : cfg.dropInapplicable.validate = .ok ()) :
    cfg.validate ≠ .ok () ↔
      ∃ p ∈ cfg.probes, ∃ key, key.appliesTo p.probeType = false ∧ ¬ p.InRange key := by
  have hvalid : cfg.dropInapplicable.Valid := (validate_eq_ok_iff _).mp hrest
  rw [Ne, validate_eq_ok_iff, valid_iff_dropInapplicable, and_iff_right hvalid]
  push Not
  exact Iff.rfl

/-- **When a config with a key that does not apply is refused.** If it would be accepted without
these keys, exactly when one of them has a value that could never be meant. If it would not be, it
is refused with them, too. -/
theorem inapplicable_refused_iff {F : Type} [F64 F] {cfg : AppConfig F}
    (hset : ∃ p ∈ cfg.probes, ¬ p.KeysApply) :
    (cfg.dropInapplicable.validate = .ok () →
      ((cfg.validate = .ok () → ∀ p ∈ cfg.probes, p.KeysApply) ↔
        ∃ p ∈ cfg.probes, ∃ key, key.appliesTo p.probeType = false ∧ ¬ p.InRange key)) ∧
    (cfg.dropInapplicable.validate ≠ .ok () → cfg.validate ≠ .ok ()) := by
  constructor
  · intro hrest
    rw [← validate_ne_ok_iff hrest]
    constructor
    · intro h hok
      obtain ⟨p, hp, hkeys⟩ := hset
      exact hkeys (h hok p hp)
    · exact fun hne hok => absurd hok hne
  · intro hrest hok
    refine hrest ((validate_eq_ok_iff _).mpr ?_)
    exact ((valid_iff_dropInapplicable cfg).mp ((validate_eq_ok_iff cfg).mp hok)).1

/-- A TCP probe that expects an HTTP status. -/
def tcpExpecting (status : UInt16) : AppConfig Decimal :=
  .ofInflux
    { InfluxConfig.default with url := "http://localhost:8086", org := "org", bucket := "bucket" }
    [{ ProbeConfig.default with
        name := "ssh", target := "localhost:22", expectedStatus := some status }]

theorem not_keysApply_tcpExpecting (status : UInt16) :
    ∃ p ∈ (tcpExpecting status).probes, ¬ p.KeysApply := by
  refine ⟨_, List.mem_cons_self, fun h => ?_⟩
  have happlies := h .expectedStatus rfl
  cases happlies

theorem inapplicable_refused_iff_tcpExpecting : (tcpExpecting 700).validate ≠ .ok () ∧
    ((tcpExpecting 700).validate = .ok () → ∀ p ∈ (tcpExpecting 700).probes, p.KeysApply) := by
  have hrest : (tcpExpecting 700).dropInapplicable.validate = .ok () := by decide
  refine ⟨by decide,
    ((inapplicable_refused_iff (not_keysApply_tcpExpecting 700)).1 hrest).mpr ?_⟩
  refine ⟨_, List.mem_cons_self, .expectedStatus, rfl, fun hrange => ?_⟩
  exact absurd (hrange 700 rfl).2 (by decide)

theorem accepts_tcp_with_status : (tcpExpecting 200).validate = .ok () ∧
    ¬ ∀ p ∈ (tcpExpecting 200).probes, p.KeysApply := by
  refine ⟨by decide, fun h => ?_⟩
  obtain ⟨p, hp, hkeys⟩ := not_keysApply_tcpExpecting 200
  exact hkeys (h p hp)

end AppConfig

end Huginn
