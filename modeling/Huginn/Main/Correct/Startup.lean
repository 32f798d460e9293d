import Huginn.Core.Correct.Load
import Huginn.Influx.Correct.Backoff
import Huginn.Main.Startup
import Mathlib.Data.Nat.Log

/-!
# Which numbers are safe

The checks of a config bound its numbers from below. Two of the operations that take them have an
upper bound as well, and so an accepted config panics nowhere exactly when two of its numbers are
not too large (`noPanic_iff`). How large is too large depends on the size of what is kept: a channel
and a batch have their memory allocated at once.
-/

namespace Huginn.Main

open Influx

variable {F : Type}

/-- `usize::next_power_of_two`. -/
def nextPowerOfTwo (n : ℕ) : ℕ := 2 ^ Nat.clog 2 n

/-- What the runtime says of its operations: when they panic. A channel refuses some capacities, and
then allocates a buffer with a slot for each message that it keeps: as many as the capacity, rounded
up to a power of two. -/
structure Runtime.Documented (rt : Runtime) (slotSize : ℕ) : Prop where
  broadcastChannel_ok_iff : ∀ n, rt.broadcastChannel n = .ok () ↔
    (n ≠ 0 ∧ n.toNat ≤ USIZE_MAX / 2) ∧ nextPowerOfTwo n.toNat * slotSize ≤ ISIZE_MAX
  interval_ok_iff : ∀ d, rt.interval d = .ok () ↔ d.nanos ≠ 0

/-- None of the operations that the numbers of a config reach panics, and the times are what the
config says. -/
structure NoPanic (rt : Runtime) (resultSize : ℕ) (cfg : AppConfig F) : Prop where
  hub : eventHubNew rt cfg.eventHubCapacity = .ok ()
  batcher : startBatcher resultSize cfg.influx.batchSize cfg.influx.batchTimeoutMs =
    .ok (.fromMillis cfg.influx.batchTimeoutMs)
  probes : ∀ p ∈ cfg.probes, startProbeLoop rt p = .ok ()
  /-- Each delay can be computed, whatever the server answers and however often it was tried. -/
  writer : ∃ initial max,
    startWriter cfg.influx.retryInitialBackoffMs cfg.influx.retryMaxBackoffMs = .ok (initial, max) ∧
      ∀ e attempt, (retryDelay initial max e attempt).asMillis ≤
        cfg.influx.retryMaxBackoffMs.toNat
  drain : ∃ d, drainTimeout cfg.influx = .ok d ∧
    d.asMillis = cfg.influx.shutdownDrainTimeoutMs.toNat

theorem ite_eq_ok_iff {p : Prop} [Decidable p] {e : Panic} :
    (if p then .ok () else .error e : Except Panic Unit) = .ok () ↔ p := by
  split_ifs with h
  · exact iff_of_true rfl h
  · exact iff_of_false (fun heq => nomatch heq) h

theorem vecWithCapacity_ok_iff {elementSize : ℕ} {capacity : UInt64} :
    vecWithCapacity elementSize capacity = .ok () ↔ capacity.toNat * elementSize ≤ ISIZE_MAX :=
  ite_eq_ok_iff

variable {rt : Runtime} {cfg : AppConfig F} {slotSize resultSize : ℕ}

/-- The buffer of the batcher is the only thing that it can panic on. -/
theorem startBatcher_eq_ok_iff (batchSize batchTimeoutMs : UInt64) :
    startBatcher resultSize batchSize batchTimeoutMs = .ok (.fromMillis batchTimeoutMs) ↔
      batchSize.toNat * resultSize ≤ ISIZE_MAX := by
  rw [← vecWithCapacity_ok_iff]
  unfold startBatcher
  cases vecWithCapacity resultSize batchSize with
  | error e => exact iff_of_false (fun heq => nomatch heq) (fun heq => nomatch heq)
  | ok u => exact iff_of_true rfl rfl

/-- An interval of a whole number of seconds other than zero. -/
theorem startProbeLoop_eq_ok (hrt : rt.Documented slotSize) {p : ProbeConfig F}
    (h : p.intervalSecs ≠ 0) : startProbeLoop rt p = .ok () := by
  refine (hrt.interval_ok_iff p.interval).mpr fun hzero => h ?_
  have hnanos : p.intervalSecs.toNat * 1000000000 = 0 := hzero
  apply UInt64.toNat_inj.mp
  show p.intervalSecs.toNat = 0
  omega

/-- The hub of an accepted config. -/
theorem eventHubNew_eq_ok_iff (hrt : rt.Documented slotSize) {capacity : UInt64}
    (h : capacity ≠ 0) : eventHubNew rt capacity = .ok () ↔
      capacity.toNat ≤ USIZE_MAX / 2 ∧ nextPowerOfTwo capacity.toNat * slotSize ≤ ISIZE_MAX := by
  rw [eventHubNew, hrt.broadcastChannel_ok_iff, and_iff_right h]

/-- **An accepted config panics nowhere exactly when its hub and its batches are not too large.**
The hub needs memory for its capacity, rounded up, and the batcher for a batch; and the channel has
a limit of its own. -/
theorem noPanic_iff [F64 F] (hrt : rt.Documented slotSize) (hvalid : cfg.validate = .ok ())
    (resultSize : ℕ) : NoPanic rt resultSize cfg ↔
      (cfg.eventHubCapacity.toNat ≤ USIZE_MAX / 2 ∧
        nextPowerOfTwo cfg.eventHubCapacity.toNat * slotSize ≤ ISIZE_MAX) ∧
      cfg.influx.batchSize.toNat * resultSize ≤ ISIZE_MAX := by
  have hcfg := (AppConfig.validate_eq_ok_iff cfg).mp hvalid
  have hhub := eventHubNew_eq_ok_iff hrt hcfg.eventHubCapacity_ne
  constructor
  · exact fun h => ⟨hhub.mp h.hub, (startBatcher_eq_ok_iff _ _).mp h.batcher⟩
  · rintro ⟨hcapacity, hbatch⟩
    refine ⟨hhub.mpr hcapacity, (startBatcher_eq_ok_iff _ _).mpr hbatch, ?_, ?_, ?_⟩
    · exact fun p hp => startProbeLoop_eq_ok hrt (hcfg.probes p hp).intervalSecs_ne
    · refine ⟨_, _, rfl, fun e attempt => ?_⟩
      rw [← Duration.asMillis_fromMillis]
      exact Duration.asMillis_mono (retryDelay_le _ _ e attempt)
    · exact ⟨_, rfl, Duration.asMillis_fromMillis _⟩

/-! ### Some configs -/

/-- The runtime with the documented limits. -/
def tokio (slotSize : ℕ) : Runtime where
  broadcastChannel n :=
    if n ≠ 0 ∧ n.toNat ≤ USIZE_MAX / 2 then
      if nextPowerOfTwo n.toNat * slotSize ≤ ISIZE_MAX then .ok () else .error .capacityOverflow
    else .error .channelCapacity
  interval d := if d.nanos ≠ 0 then .ok () else .error .zeroPeriod

theorem documented_tokio (slotSize : ℕ) : (tokio slotSize).Documented slotSize where
  broadcastChannel_ok_iff n := by
    dsimp only [tokio]
    split_ifs with hcapacity hbuffer
    · exact iff_of_true rfl ⟨hcapacity, hbuffer⟩
    · exact iff_of_false nofun fun h => hbuffer h.2
    · exact iff_of_false nofun fun h => hcapacity h.1
  interval_ok_iff _ := ite_eq_ok_iff

theorem broadcastChannel_tokio {n : UInt64} (h : ¬ (n ≠ 0 ∧ n.toNat ≤ USIZE_MAX / 2)) :
    (tokio slotSize).broadcastChannel n = .error .channelCapacity := by
  dsimp only [tokio]
  rw [if_neg h]

/-- A config with nothing but what is needed, and a capacity of the hub. -/
def ofHubCapacity (capacity : UInt64) : AppConfig Decimal :=
  { AppConfig.ofInflux { InfluxConfig.default with
      url := "http://influxdb:8086", org := "org", bucket := "bucket" } [] with
    eventHubCapacity := capacity }

theorem noPanic_iff_rounded : NoPanic (tokio 256) 200 (ofHubCapacity 1000) :=
  (noPanic_iff (documented_tokio 256) (by decide) 200).mpr
    ⟨⟨by decide, by decide⟩, by decide⟩

/-- One more than the largest capacity. -/
theorem accepts_huge_hub : (ofHubCapacity 0x8000000000000000).validate = .ok () ∧
    ∀ slotSize, (tokio slotSize).Documented slotSize ∧
      eventHubNew (tokio slotSize) (ofHubCapacity 0x8000000000000000).eventHubCapacity =
        .error .channelCapacity ∧
      ∀ resultSize, ¬ NoPanic (tokio slotSize) resultSize (ofHubCapacity 0x8000000000000000) := by
  refine ⟨by decide, fun slotSize => ?_⟩
  have hpanic : eventHubNew (tokio slotSize) (ofHubCapacity 0x8000000000000000).eventHubCapacity =
      .error .channelCapacity := broadcastChannel_tokio (by decide)
  refine ⟨documented_tokio slotSize, hpanic, fun resultSize h => ?_⟩
  have hhub := h.hub
  rw [hpanic] at hhub
  cases hhub

end Huginn.Main
