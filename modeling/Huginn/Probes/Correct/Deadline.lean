import Huginn.Probes.Executors

/-!
# How long a probe takes

A probe waits for its network steps inside `with_probe_timeout`, once. So it is over after at most
`timeout_secs`, whatever time the steps take or do not take (`execute_within`). The UDP probe is the
exception: it resolves its target inside one timeout and waits for the answer inside another. It
keeps to `timeout_secs` exactly when the two waits do together (`execute_within_iff`).
-/

namespace Huginn

/-- `Duration::from_secs(..).as_millis()`. -/
theorem Duration.asMillis_fromSecs (secs : UInt64) :
    (Duration.fromSecs secs).asMillis = 1000 * secs.toNat := by
  show secs.toNat * 1000000000 / 1000000 = 1000 * secs.toNat
  omega

namespace Probes

open Future

/-! ### `with_probe_timeout` -/

section Timeout

variable {α : Type} {duration : Duration} {timeoutMsg : String} {fut : Attempt α}

theorem within_withProbeTimeout :
    Within duration.asMillis (withProbeTimeout duration timeoutMsg fut) := by
  refine within_bind_pure (within_timeout _ _) fun outcome => ?_
  cases outcome with
  | some outcome => exact ⟨outcome, rfl⟩
  | none => exact ⟨.error timeoutMsg, rfl⟩

/-- What is over in time is returned. -/
theorem withProbeTimeout_of_le {t : ℕ} {outcome : Except String α} (h : fut.run = ready t outcome)
    (hle : t ≤ duration.asMillis) :
    withProbeTimeout duration timeoutMsg fut = ready t outcome := by
  have htimeout : Future.timeout duration.asMillis fut.run = ready t (some outcome) := by
    rw [h]
    exact if_pos hle
  rw [withProbeTimeout, htimeout, bind_ready]
  exact delay_pure t outcome

/-- What takes longer is the message. -/
theorem withProbeTimeout_of_late (h : ∀ t outcome, fut.run = ready t outcome →
      duration.asMillis < t) :
    withProbeTimeout duration timeoutMsg fut = ready duration.asMillis (.error timeoutMsg) := by
  have htimeout : Future.timeout duration.asMillis fut.run = ready duration.asMillis none := by
    cases hrun : fut.run with
    | never => rfl
    | ready t outcome => exact if_neg (Nat.not_le.mpr (h t outcome hrun))
  rw [withProbeTimeout, htimeout, bind_ready]
  exact delay_pure _ _

end Timeout

/-! ### The executors -/

variable {F : Type} {w : World F} {cfg : ProbeConfig F}

theorem asMillis_timeout : cfg.timeout.asMillis = 1000 * cfg.timeoutSecs.toNat :=
  Duration.asMillis_fromSecs cfg.timeoutSecs

/-- One wait, and then a result. -/
theorem within_of_one_wait {α β : Type} {fut : Attempt α} {f : Except String α → Future β}
    (hf : ∀ outcome, ∃ r, f outcome = pure r) :
    Within cfg.timeout.asMillis
      (withProbeTimeout cfg.timeout (timeoutMessage cfg) fut >>= f) :=
  within_bind_pure within_withProbeTimeout hf

theorem Tcp.within : Within cfg.timeout.asMillis (Tcp.probe w cfg) := by
  refine within_of_one_wait fun outcome => ?_
  cases outcome with
  | ok => exact ⟨_, rfl⟩
  | error msg => exact ⟨_, rfl⟩

theorem greetingProbe_within (probeType expected emptyMessage unexpected : String) :
    Within cfg.timeout.asMillis
      (greetingProbe probeType expected emptyMessage unexpected w cfg) := by
  refine within_of_one_wait fun outcome => ?_
  cases outcome with
  | ok greeting =>
    dsimp only
    split_ifs
    · exact ⟨_, rfl⟩
    · exact ⟨_, rfl⟩
    · exact ⟨_, rfl⟩
  | error msg => exact ⟨_, rfl⟩

/-- The two waits of a UDP probe fit into one timeout: when the target resolves in time and the
query is sent, resolving took no time at all, or the answer comes within what is left of it. -/
def Udp.FitsBudget (w : World F) (cfg : ProbeConfig F) : Prop :=
  ∀ t addr addrs, (w.lookupHost cfg.target).run = ready t (.ok (addr :: addrs)) →
    t ≤ 1000 * cfg.timeoutSecs.toNat → sendQuery w addr = .ok () →
    t = 0 ∨ ∃ u received, w.udpRecv.run = ready u received ∧
      t + u ≤ 1000 * cfg.timeoutSecs.toNat

/-- The wait for the answer, after `t` milliseconds. -/
theorem Udp.within_recv_iff {t : ℕ} {f : Except String ℕ → Future (ProbeResult F)}
    (ht : t ≤ cfg.timeout.asMillis) (hf : ∀ received, ∃ r, f received = pure r) :
    Within cfg.timeout.asMillis
        ((withProbeTimeout cfg.timeout (timeoutMessage cfg) w.udpRecv >>= f).delay t) ↔
      t = 0 ∨ ∃ u received, w.udpRecv.run = ready u received ∧ t + u ≤ cfg.timeout.asMillis := by
  rw [within_delay_iff ht]
  by_cases hlate : ∀ u received, w.udpRecv.run = ready u received → cfg.timeout.asMillis < u
  · -- the whole of the second timeout passes
    obtain ⟨r, hr⟩ := hf (.error (timeoutMessage cfg))
    rw [withProbeTimeout_of_late hlate, bind_ready, hr, delay_pure, within_ready_iff]
    constructor
    · intro hle
      exact .inl (by omega)
    · rintro (rfl | ⟨u, received, hrun, hle⟩)
      · exact Nat.le_refl _
      · have := hlate u received hrun
        omega
  · simp only [not_forall, Nat.not_lt] at hlate
    obtain ⟨u, received, hrun, hu⟩ := hlate
    obtain ⟨r, hr⟩ := hf received
    rw [withProbeTimeout_of_le hrun hu, bind_ready, hr, delay_pure, within_ready_iff]
    constructor
    · intro hle
      exact .inr ⟨u, received, hrun, by omega⟩
    · rintro (rfl | ⟨u', received', hrun', hle⟩)
      · exact hu
      · obtain ⟨rfl, -⟩ := Future.ready.inj (hrun.symm.trans hrun')
        omega

/-- Where no query is sent there is no second wait. -/
theorem Udp.fitsBudget_of_no_query {t : ℕ} {outcome : Except String (List IpAddr)}
    (hrun : (w.lookupHost cfg.target).run = ready t outcome)
    (hnot : ∀ addr addrs, outcome = .ok (addr :: addrs) → sendQuery w addr ≠ .ok ()) :
    Udp.FitsBudget w cfg := by
  intro t' addr addrs hrun' _ hsend
  obtain ⟨-, heq⟩ := Future.ready.inj (hrun.symm.trans hrun')
  exact absurd hsend (hnot addr addrs heq)

/-- Where one is, the budget is about this lookup and this answer. -/
theorem Udp.fitsBudget_iff {t : ℕ} {addr : IpAddr} {addrs : List IpAddr}
    (hrun : (w.lookupHost cfg.target).run = ready t (.ok (addr :: addrs)))
    (ht : t ≤ cfg.timeout.asMillis) (hsend : sendQuery w addr = .ok ()) :
    Udp.FitsBudget w cfg ↔
      t = 0 ∨ ∃ u received, w.udpRecv.run = ready u received ∧ t + u ≤ cfg.timeout.asMillis := by
  rw [FitsBudget, ← asMillis_timeout]
  constructor
  · intro hfits
    exact hfits t addr addrs hrun ht hsend
  · intro hfits t' addr' addrs' hrun' _ _
    obtain ⟨rfl, -⟩ := Future.ready.inj (hrun.symm.trans hrun')
    exact hfits

theorem Udp.within_iff : Within cfg.timeout.asMillis (Udp.probe w cfg) ↔ Udp.FitsBudget w cfg := by
  rw [Udp.probe]
  by_cases hlate : ∀ t outcome, (w.lookupHost cfg.target).run = ready t outcome →
      cfg.timeout.asMillis < t
  · rw [withProbeTimeout_of_late hlate, bind_ready, delay_pure, within_ready_iff]
    refine iff_of_true (Nat.le_refl _) fun t addr addrs hrun ht => ?_
    have hlt := hlate t _ hrun
    rw [asMillis_timeout] at hlt
    omega
  simp only [not_forall, Nat.not_lt] at hlate
  obtain ⟨t, outcome, hrun, ht⟩ := hlate
  rw [withProbeTimeout_of_le hrun ht, bind_ready]
  -- anything but an address ends the probe at once
  have hother : ∀ r : ProbeResult F, (∀ addr addrs, outcome = .ok (addr :: addrs) →
        sendQuery w addr ≠ .ok ()) →
      (Within cfg.timeout.asMillis ((pure r : Future (ProbeResult F)).delay t) ↔
        Udp.FitsBudget w cfg) := by
    intro r hnot
    rw [delay_pure, within_ready_iff]
    exact iff_of_true ht (Udp.fitsBudget_of_no_query hrun hnot)
  rcases outcome with msg | (_ | ⟨addr, addrs⟩)
  · exact hother _ (by simp)
  · exact hother _ (by simp)
  · dsimp only
    cases hsend : sendQuery w addr with
    | error msg => exact hother _ (by simp [hsend])
    | ok =>
      dsimp only
      rw [Udp.fitsBudget_iff hrun ht hsend]
      refine Udp.within_recv_iff ht fun received => ?_
      cases received with
      | error msg => exact ⟨_, rfl⟩
      | ok n =>
        dsimp only
        split_ifs
        · exact ⟨_, rfl⟩
        · exact ⟨_, rfl⟩

variable [F64 F]

theorem HttpProbe.within : Within cfg.timeout.asMillis (HttpProbe.probe w cfg) := by
  unfold HttpProbe.probe
  cases w.httpClient with
  | error e => exact within_pure _ _
  | ok =>
    refine within_of_one_wait fun outcome => ?_
    cases outcome with
    | ok status =>
      dsimp only
      split_ifs
      · exact ⟨_, rfl⟩
      · exact ⟨_, rfl⟩
    | error msg => exact ⟨_, rfl⟩

theorem Dns.within : Within cfg.timeout.asMillis (Dns.probe w cfg) := by
  unfold Dns.probe
  cases SocketAddr.parse cfg.target with
  | none => exact within_pure _ _
  | some nameserver =>
    dsimp only
    cases w.buildResolver nameserver with
    | error e => exact within_pure _ _
    | ok =>
      refine within_of_one_wait fun outcome => ?_
      cases outcome with
      | error msg => exact ⟨_, rfl⟩
      | ok resolved => exact ⟨_, rfl⟩

theorem TlsProbe.within : Within cfg.timeout.asMillis (TlsProbe.probe w cfg) := by
  unfold TlsProbe.probe
  cases w.tlsConfig with
  | error e => exact within_pure _ _
  | ok =>
    refine within_of_one_wait fun outcome => ?_
    cases outcome with
    | error msg => exact ⟨_, rfl⟩
    | ok der => exact ⟨_, rfl⟩

/-- **A probe with one wait is over in time**, whatever its network steps take. -/
theorem execute_within (h : cfg.probeType ≠ .udp) :
    Within (1000 * cfg.timeoutSecs.toNat) (execute w cfg) := by
  rw [← asMillis_timeout, execute]
  cases htype : cfg.probeType with
  | tcp => exact Tcp.within
  | http => exact HttpProbe.within
  | https => exact HttpProbe.within
  | smtp => exact greetingProbe_within _ _ _ _
  | imap => exact greetingProbe_within _ _ _ _
  | udp => exact absurd htype h
  | dns => exact Dns.within
  | tls => exact TlsProbe.within

/-- **`timeout_secs` bounds the whole probe exactly when it is not a UDP probe whose two waits
exceed it together.** -/
theorem execute_within_iff {F : Type} [F64 F] (w : World F) (cfg : ProbeConfig F) :
    Within (1000 * cfg.timeoutSecs.toNat) (execute w cfg) ↔
      (cfg.probeType = .udp → Udp.FitsBudget w cfg) := by
  by_cases h : cfg.probeType = .udp
  · rw [← asMillis_timeout, execute, h]
    simp only [Udp.within_iff, true_imp_iff]
  · exact iff_of_true (execute_within h) fun hudp => absurd hudp h

/-- A world in which a target resolves after `lookupMs`, and no answer ever comes. -/
def silentWorld (lookupMs : ℕ) : World Decimal where
  now := ⟨0⟩
  elapsedMs := F64.ofInt 0
  connect _ := ExceptT.mk .never
  stream := ⟨[], ExceptT.mk .never⟩
  httpClient := .ok ()
  get _ := ExceptT.mk .never
  lookupHost _ := ExceptT.mk (.ready lookupMs (.ok [.v4 .LOCALHOST]))
  bind _ := .ok ()
  udpConnect _ := .ok ()
  udpSend _ := .ok ()
  udpRecv := ExceptT.mk .never
  buildResolver _ := .ok ()
  lookupIp _ := ExceptT.mk .never
  tlsConfig := .ok ()
  isServerName _ := true
  handshake := ExceptT.mk .never
  notAfter _ := .ok 0
  judgedAt := ⟨0⟩

/-- A UDP probe with a timeout of two seconds. -/
def udpConfig : ProbeConfig Decimal :=
  { ProbeConfig.default with
    name := "ntp", probeType := .udp, target := "localhost:123", timeoutSecs := 2 }

/-- It waits for one second and a half, and then for two more. -/
theorem udp_waits_twice :
    ¬ Within (1000 * udpConfig.timeoutSecs.toNat) (execute (silentWorld 1500) udpConfig) := by
  have heq : execute (silentWorld 1500) udpConfig =
      ready 3500 (down (silentWorld 1500) udpConfig "udp" (timeoutMessage udpConfig)) := rfl
  rw [heq, within_ready_iff]
  decide

end Probes

end Huginn
