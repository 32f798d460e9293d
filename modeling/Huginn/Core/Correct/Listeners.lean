import Huginn.Core.Correct.Load

/-!
# The listeners of an accepted config

The three listeners of the process, the addresses and ports that they bind, and what a config has to
say about them for all that are enabled to be bound and reached (`AppConfig.ListenersOk`). The
checks guarantee it but for one port that none of them looks at, that of the liveness listener
(`AppConfig.listenersOk_iff`).
-/

namespace Huginn

variable {F : Type} [F64 F]

inductive Listener
  | ui
  | metrics
  | health
  deriving DecidableEq, Repr

namespace AppConfig

omit [F64 F]

/-- Whether a listener is started. -/
def enabled (cfg : AppConfig F) : Listener → Bool
  | .ui => cfg.ui.enabled
  | .metrics => cfg.metrics.enabled
  | .health => cfg.health.enabled

/-- The port that a listener binds. -/
def port (cfg : AppConfig F) : Listener → UInt16
  | .ui => cfg.ui.port
  | .metrics => cfg.metrics.port
  | .health => cfg.health.port

/-- The address that a listener binds, which `bind_ui`, `bind_metrics` and `bind_health` parse. -/
def addr (cfg : AppConfig F) : Listener → Option IpAddr
  | .ui => IpAddr.parse cfg.ui.bind
  | .metrics => IpAddr.parse cfg.metrics.bind
  | .health => IpAddr.parse HEALTH_BIND

/-- Every enabled listener can be reached, and any two of them can be bound side by side. -/
structure ListenersOk (cfg : AppConfig F) : Prop where
  bound : ∀ l, cfg.enabled l = true → (cfg.addr l).isSome = true
  reachable : ∀ l, cfg.enabled l = true → cfg.port l ≠ 0
  coexist : ∀ l l', l ≠ l' → cfg.enabled l = true → cfg.enabled l' = true →
    cfg.port l = cfg.port l' → ∀ a ∈ cfg.addr l, ∀ a' ∈ cfg.addr l', ¬ addressesContend a a'

end AppConfig

theorem addressesContend_comm (a b : IpAddr) : addressesContend a b = addressesContend b a := by
  have heq : decide (a = b) = decide (b = a) := decide_eq_decide.mpr eq_comm
  rw [addressesContend, addressesContend, heq, Bool.or_assoc, Bool.or_assoc,
    Bool.or_comm (a.isUnspecified && _)]

namespace AppConfig

variable {cfg : AppConfig F} {uiAddr metricsAddr : IpAddr}

omit [F64 F] in
theorem addr_health : cfg.addr .health = some HEALTH_ADDR := by
  show IpAddr.parse HEALTH_BIND = some HEALTH_ADDR
  decide

omit [F64 F] in
/-- What keeps two listeners apart does so in either order. -/
theorem apart_symm {l l' : Listener} (h : cfg.enabled l = true → cfg.enabled l' = true →
      cfg.port l = cfg.port l' → ∀ a ∈ cfg.addr l, ∀ a' ∈ cfg.addr l', ¬ addressesContend a a') :
    cfg.enabled l' = true → cfg.enabled l = true → cfg.port l' = cfg.port l →
      ∀ a' ∈ cfg.addr l', ∀ a ∈ cfg.addr l, ¬ addressesContend a' a := by
  intro henabled' henabled hport a' ha' a ha
  rw [addressesContend_comm]
  exact h henabled henabled' hport.symm a ha a' ha'

namespace ListenersValid

omit [F64 F]

variable (h : cfg.ListenersValid uiAddr metricsAddr)
include h

theorem isSome_addr (l : Listener) : (cfg.addr l).isSome = true := by
  cases l with
  | ui => rw [addr, h.ui_bind]; rfl
  | metrics => rw [addr, h.metrics_bind]; rfl
  | health => rw [addr_health]; rfl

theorem ui_metrics_apart (hui : cfg.enabled .ui = true) (hmetrics : cfg.enabled .metrics = true)
    (hport : cfg.port .ui = cfg.port .metrics) :
    ∀ a ∈ cfg.addr .ui, ∀ a' ∈ cfg.addr .metrics, ¬ addressesContend a a' := by
  intro a ha a' ha' hcontend
  obtain rfl := Option.some.inj (ha.symm.trans h.ui_bind)
  obtain rfl := Option.some.inj (ha'.symm.trans h.metrics_bind)
  exact h.ui_metrics ⟨hui, hmetrics, hcontend, hport⟩

theorem ui_health_apart (hui : cfg.enabled .ui = true) (hhealth : cfg.enabled .health = true)
    (hport : cfg.port .ui = cfg.port .health) :
    ∀ a ∈ cfg.addr .ui, ∀ a' ∈ cfg.addr .health, ¬ addressesContend a a' := by
  intro a ha a' ha' hcontend
  obtain rfl := Option.some.inj (ha.symm.trans h.ui_bind)
  obtain rfl := Option.some.inj (ha'.symm.trans addr_health)
  exact h.ui_health ⟨hhealth, hui, hport, hcontend⟩

theorem metrics_health_apart (hmetrics : cfg.enabled .metrics = true)
    (hhealth : cfg.enabled .health = true) (hport : cfg.port .metrics = cfg.port .health) :
    ∀ a ∈ cfg.addr .metrics, ∀ a' ∈ cfg.addr .health, ¬ addressesContend a a' := by
  intro a ha a' ha' hcontend
  obtain rfl := Option.some.inj (ha.symm.trans h.metrics_bind)
  obtain rfl := Option.some.inj (ha'.symm.trans addr_health)
  exact h.metrics_health ⟨hhealth, hmetrics, hport, hcontend⟩

/-- No two listeners of a valid config get in each other's way. -/
theorem apart {l l' : Listener} (hne : l ≠ l') : cfg.enabled l = true → cfg.enabled l' = true →
    cfg.port l = cfg.port l' → ∀ a ∈ cfg.addr l, ∀ a' ∈ cfg.addr l', ¬ addressesContend a a' := by
  cases l with
  | ui =>
    cases l' with
    | ui => exact absurd rfl hne
    | metrics => exact h.ui_metrics_apart
    | health => exact h.ui_health_apart
  | metrics =>
    cases l' with
    | ui => exact apart_symm h.ui_metrics_apart
    | metrics => exact absurd rfl hne
    | health => exact h.metrics_health_apart
  | health =>
    cases l' with
    | ui => exact apart_symm h.ui_health_apart
    | metrics => exact apart_symm h.metrics_health_apart
    | health => exact absurd rfl hne

end ListenersValid

/-- **An accepted config has listeners that can be reached and can coexist, exactly when an enabled
liveness listener has a port.** -/
theorem listenersOk_iff {F : Type} [F64 F] {cfg : AppConfig F} (h : cfg.validate = .ok ()) :
    cfg.ListenersOk ↔ ¬ (cfg.health.enabled = true ∧ cfg.health.port = 0) := by
  obtain ⟨uiAddr, metricsAddr, hlisteners⟩ := ((validate_eq_ok_iff cfg).mp h).listeners
  constructor
  · rintro hok ⟨henabled, hport⟩
    exact hok.reachable .health henabled hport
  · intro hhealth
    refine ⟨fun l _ => hlisteners.isSome_addr l, fun l henabled hport => ?_,
      fun l l' hne => hlisteners.apart hne⟩
    cases l with
    | ui => exact hlisteners.ui_port ⟨henabled, hport⟩
    | metrics => exact hlisteners.metrics_port ⟨henabled, hport⟩
    | health => exact hhealth ⟨henabled, hport⟩

/-- A config with nothing but what the `influx` section needs, and a port for the liveness
listener. -/
def ofHealthPort (port : UInt16) : AppConfig Decimal :=
  { AppConfig.ofInflux { InfluxConfig.default with
      url := "http://influxdb:8086", org := "org", bucket := "bucket" } [] with
    health := ⟨true, port⟩ }

/-- All three listeners: the UI has the address of the liveness listener, and the metrics endpoint
its port. -/
def sideBySide : AppConfig Decimal :=
  { ofHealthPort 9115 with
    ui := { enabled := true, bind := "127.0.0.1", port := 9116 }
    metrics := { enabled := true, bind := "10.0.0.1", port := 9115, apiKeyFile := none } }

theorem listenersOk_iff_sideBySide : sideBySide.ListenersOk ↔
    ¬ (sideBySide.health.enabled = true ∧ sideBySide.health.port = 0) :=
  listenersOk_iff (by decide +kernel)

theorem accepts_health_port_zero :
    (ofHealthPort 0).validate = .ok () ∧ ¬ (ofHealthPort 0).ListenersOk := by
  refine ⟨by decide, fun h => ?_⟩
  exact h.reachable .health rfl rfl

end AppConfig

end Huginn
