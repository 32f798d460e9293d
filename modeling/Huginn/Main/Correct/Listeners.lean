import Huginn.Core.Correct.Contend
import Huginn.Core.Correct.Listeners
import Huginn.Main.Correct.Startup
import Huginn.Main.Listeners

/-!
# When the process comes up

The sockets of an accepted config do not get in each other's way, and so whether the process comes
up is up to the world: whether the files can be read, and whether what is outside leaves the ports
alone (`start_ok_iff`). There are three exceptions, which the checks do not see: an event hub that
is too large, two spellings of one address, and a liveness listener on port 0, for which the system
may choose the port of another listener. What comes up is what is enabled, and a metrics endpoint
with a key file has a key (`Started.Complete`).
-/

namespace Huginn.Main

variable {F : Type} {rt : Runtime} {slotSize : ℕ} {out : Outside} {free : Socket → Prop}
  {cfg : AppConfig F} {uiAddr metricsAddr : IpAddr}

/-! ### The sockets of a config -/

/-- The socket of a listener, if it is enabled. -/
def socketOf (enabled : Bool) (bind : String) (port : UInt16) : Option Socket :=
  if enabled then (IpAddr.parse bind).map fun addr => ⟨addr, port⟩ else none

def sockets (cfg : AppConfig F) : Listener → Option Socket
  | .ui => socketOf cfg.ui.enabled cfg.ui.bind cfg.ui.port
  | .metrics => socketOf cfg.metrics.enabled cfg.metrics.bind cfg.metrics.port
  | .health => socketOf cfg.health.enabled HEALTH_BIND cfg.health.port

/-- Two sockets that cannot be bound at once: the ports are the same, and there is an address that
both would serve. -/
def Clash (s t : Socket) : Prop := s.port = t.port ∧ (serves s.addr ∩ serves t.addr).Nonempty

/-- A socket can be bound: nothing outside and nothing of the process is in the way. -/
def Opens (free : Socket → Prop) (bound : List Socket) (s : Socket) : Prop :=
  free s ∧ ∀ b ∈ bound, ¬ Clash b s

/-- What the operating system says of `bind`: when a socket with a port is bound, and that one
without a port is given one that can be. -/
structure Outside.Documented (out : Outside) (free : Socket → Prop) : Prop where
  given : ∀ bound s t, s.port ≠ 0 → (out.tcpBind bound s = .ok t ↔ t = s ∧ Opens free bound s)
  chosen : ∀ bound s t, s.port = 0 → out.tcpBind bound s = .ok t →
    t.addr = s.addr ∧ t.port ≠ 0 ∧ Opens free bound t

/-- What has to be the case for the process to come up. -/
structure Startable (slotSize : ℕ) (out : Outside) (free : Socket → Prop) (cfg : AppConfig F) :
    Prop where
  /-- The channel of the event hub is not too large. -/
  hub : cfg.eventHubCapacity.toNat ≤ USIZE_MAX / 2 ∧
    nextPowerOfTwo cfg.eventHubCapacity.toNat * slotSize ≤ ISIZE_MAX
  token : ∃ token, cfg.influx.readToken out.readToString = .ok token
  client : out.buildClient = .ok ()
  apiKey : cfg.metrics.enabled = true → ∃ key, cfg.metrics.readApiKey out.readToString = .ok key
  free : ∀ l, ∀ s ∈ sockets cfg l, s.port ≠ 0 → free s
  /-- No two listeners have one address under two spellings. -/
  apart : ∀ l l', l ≠ l' → ∀ s ∈ sockets cfg l, ∀ s' ∈ sockets cfg l', s.port = s'.port →
    ¬ MappedClash s.addr s'.addr
  /-- Where the system chooses the port of the liveness listener, it has one, and that is none of
  the other listeners'. -/
  chosen : ∀ s ∈ sockets cfg .health, s.port = 0 → ∃ t, out.tcpBind [] s = .ok t ∧
    ∀ l, l ≠ .health → ∀ s' ∈ sockets cfg l, ¬ Clash t s'

/-- A listener is on its socket, or where that has no port, on one of the same address that has. -/
def ListensOn : Option Socket → Option Socket → Prop
  | none, r => r = none
  | some s, r => ∃ t ∈ r, t.addr = s.addr ∧ t.port ≠ 0 ∧ (s.port ≠ 0 → t.port = s.port)

/-- What is enabled has come up, and a key file has given a key. -/
structure Started.Complete (st : Started) (out : Outside) (cfg : AppConfig F) : Prop where
  health : ListensOn (sockets cfg .health) st.health
  ui : st.ui = sockets cfg .ui
  metrics : st.metrics.map Prod.fst = sockets cfg .metrics
  token : cfg.influx.readToken out.readToString = .ok st.token
  apiKey : ∀ m ∈ st.metrics, m.2 = none → cfg.metrics.apiKeyFile = none

theorem mem_socketOf {enabled : Bool} {bind : String} {port : UInt16} {s : Socket} :
    s ∈ socketOf enabled bind port ↔
      enabled = true ∧ IpAddr.parse bind = some s.addr ∧ s.port = port := by
  unfold socketOf
  cases enabled with
  | false => simp
  | true =>
    simp only [if_true, Option.mem_def, Option.map_eq_some_iff, true_and]
    constructor
    · rintro ⟨addr, haddr, rfl⟩
      exact ⟨haddr, rfl⟩
    · rintro ⟨haddr, rfl⟩
      exact ⟨s.addr, haddr, rfl⟩

theorem mem_sockets {l : Listener} {s : Socket} :
    s ∈ sockets cfg l ↔ cfg.enabled l = true ∧ s.addr ∈ cfg.addr l ∧ s.port = cfg.port l := by
  cases l
  all_goals exact mem_socketOf

theorem isSome_sockets {l : Listener} (h : cfg.enabled l = true)
    (haddr : (cfg.addr l).isSome = true) : (sockets cfg l).isSome = true := by
  obtain ⟨addr, hmem⟩ := Option.isSome_iff_exists.mp haddr
  have hsocket : (⟨addr, cfg.port l⟩ : Socket) ∈ sockets cfg l := mem_sockets.mpr ⟨h, hmem, rfl⟩
  exact Option.isSome_of_mem hsocket

/-- The ports of the listeners but the liveness listener are checked. -/
theorem port_ne (h : cfg.ListenersValid uiAddr metricsAddr) {l : Listener} (hl : l ≠ .health)
    {s : Socket} (hs : s ∈ sockets cfg l) : s.port ≠ 0 := by
  obtain ⟨henabled, -, hport⟩ := mem_sockets.mp hs
  rw [hport]
  cases l with
  | ui => exact fun hzero => h.ui_port ⟨henabled, hzero⟩
  | metrics => exact fun hzero => h.metrics_port ⟨henabled, hzero⟩
  | health => exact absurd rfl hl

/-- Two listeners on one port are both on a port. -/
theorem ports_ne (h : cfg.ListenersValid uiAddr metricsAddr) {l l' : Listener} (hne : l ≠ l')
    {s s' : Socket} (hs : s ∈ sockets cfg l) (hs' : s' ∈ sockets cfg l')
    (hport : s.port = s'.port) : s.port ≠ 0 ∧ s'.port ≠ 0 := by
  by_cases hl : l = .health
  · have hne' := port_ne h (fun hl' => hne (hl.trans hl'.symm)) hs'
    exact ⟨hport ▸ hne', hne'⟩
  · have hne' := port_ne h hl hs
    exact ⟨hne', hport ▸ hne'⟩

/-- The listeners of an accepted config are kept apart, but for two spellings of one address. -/
theorem clash_iff (h : cfg.ListenersValid uiAddr metricsAddr) {l l' : Listener} (hne : l ≠ l')
    {s s' : Socket} (hs : s ∈ sockets cfg l) (hs' : s' ∈ sockets cfg l') :
    Clash s s' ↔ s.port = s'.port ∧ MappedClash s.addr s'.addr := by
  obtain ⟨henabled, haddr, hport⟩ := mem_sockets.mp hs
  obtain ⟨henabled', haddr', hport'⟩ := mem_sockets.mp hs'
  have hexact := contend_iff_common_iff s.addr s'.addr
  unfold Clash
  refine and_congr_right fun hports => ?_
  have hport'' : cfg.port l = cfg.port l' := by rw [← hport, ← hport', hports]
  have hnot := h.apart hne henabled henabled' hport'' _ haddr _ haddr'
  constructor
  · intro hnonempty
    by_contra hno
    exact hnot ((hexact.mpr hno).mpr hnonempty)
  · intro hmapped
    by_contra hempty
    exact hexact.mp (iff_of_false hnot hempty) hmapped

/-! ### Each of the steps -/

theorem mapError_ok_iff {α ε ε' : Type} {x : Except ε α} {f : ε → ε'} {a : α} :
    x.mapError f = .ok a ↔ x = .ok a := by
  cases x with
  | error e => exact iff_of_false nofun nofun
  | ok b =>
    show Except.ok b = .ok a ↔ _
    rw [Except.ok.injEq, Except.ok.injEq]

theorem withContext_ok_iff {α : Type} {context : String} {x : Except AnyhowError α} {a : α} :
    withContext context x = .ok a ↔ x = .ok a :=
  mapError_ok_iff

theorem ifEnabled_ok_iff {α : Type} {enabled : Bool} {x : Except AnyhowError α} {r : Option α} :
    ifEnabled enabled x = .ok r ↔
      (enabled = true ∧ ∃ a, x = .ok a ∧ r = some a) ∨ (enabled = false ∧ r = none) := by
  unfold ifEnabled
  cases enabled with
  | false => simp [eq_comm]
  | true =>
    cases x with
    | error e => simp [Except.map]
    | ok a => simp [Except.map, eq_comm]

theorem orFail_ok_iff {α : Type} {x : Except AnyhowError α} {a : α} :
    orFail x = .ok a ↔ x = .ok a :=
  mapError_ok_iff

theorem orPanic_ok_iff {α : Type} {x : Except Panic α} {a : α} :
    orPanic x = .ok a ↔ x = .ok a :=
  mapError_ok_iff

theorem bindListener_ok_iff {field what : String} {bound : List Socket} {bind : String}
    {port : UInt16} {t : Socket} : bindListener field what out bound bind port = .ok t ↔
      ∃ addr, IpAddr.parse bind = some addr ∧ out.tcpBind bound ⟨addr, port⟩ = .ok t := by
  unfold bindListener
  cases IpAddr.parse bind with
  | none => simp
  | some addr =>
    simp only [Option.some.injEq, exists_eq_left']
    cases out.tcpBind bound ⟨addr, port⟩ with
    | error e => simp
    | ok socket => simp

/-- What comes of binding the socket of a listener, if it is enabled. -/
inductive Binds (out : Outside) (bound : List Socket) : Option Socket → Option Socket → Prop
  | disabled : Binds out bound none none
  | enabled {s t : Socket} (h : out.tcpBind bound s = .ok t) : Binds out bound (some s) (some t)

/-- A listener comes up on its socket, if it is enabled. -/
theorem listener_ok_iff {context field what : String} {bound : List Socket} {enabled : Bool}
    {bind : String} {port : UInt16} (haddr : (IpAddr.parse bind).isSome = true)
    {r : Option Socket} :
    ifEnabled enabled (withContext context (bindListener field what out bound bind port)) = .ok r ↔
      Binds out bound (socketOf enabled bind port) r := by
  obtain ⟨addr, hparse⟩ := Option.isSome_iff_exists.mp haddr
  rw [ifEnabled_ok_iff]
  cases enabled with
  | false =>
    constructor
    · rintro (⟨h, -⟩ | ⟨-, rfl⟩)
      · cases h
      · exact .disabled
    · rintro ⟨⟩
      exact .inr ⟨rfl, rfl⟩
  | true =>
    have hsocket : socketOf true bind port = some ⟨addr, port⟩ := by
      rw [socketOf, hparse]
      rfl
    simp only [hsocket, withContext_ok_iff, bindListener_ok_iff, hparse, Option.some.injEq,
      exists_eq_left']
    constructor
    · rintro (⟨-, t, ht, rfl⟩ | ⟨h, -⟩)
      · exact .enabled ht
      · cases h
    · rintro ⟨⟩
      exact .inl ⟨trivial, _, by assumption, rfl⟩

/-- A socket with a port is bound where nothing is in the way. -/
theorem binds_iff (hout : out.Documented free) {bound : List Socket} {asked r : Option Socket}
    (hport : ∀ s ∈ asked, s.port ≠ 0) :
    Binds out bound asked r ↔ r = asked ∧ ∀ s ∈ r, Opens free bound s := by
  constructor
  · rintro (_ | ⟨h⟩)
    · exact ⟨rfl, nofun⟩
    · obtain ⟨rfl, hopens⟩ := (hout.given _ _ _ (hport _ rfl)).mp h
      refine ⟨rfl, ?_⟩
      rintro s ⟨⟩
      exact hopens
  · rintro ⟨rfl, hopens⟩
    cases r with
    | none => exact .disabled
    | some s => exact .enabled ((hout.given _ _ _ (hport s rfl)).mpr ⟨rfl, hopens s rfl⟩)

/-- Whatever is bound has a port and nothing in its way. -/
theorem Binds.listensOn (hout : out.Documented free) {bound : List Socket}
    {asked r : Option Socket} (h : Binds out bound asked r) :
    ListensOn asked r ∧ ∀ t ∈ r, Opens free bound t := by
  cases h with
  | disabled => exact ⟨rfl, nofun⟩
  | @enabled s t h =>
    by_cases hport : s.port = 0
    · obtain ⟨haddr, hne, hopens⟩ := hout.chosen bound s t hport h
      refine ⟨⟨t, rfl, haddr, hne, fun hnot => absurd hport hnot⟩, ?_⟩
      rintro t' ⟨⟩
      exact hopens
    · obtain ⟨rfl, hopens⟩ := (hout.given bound s t hport).mp h
      refine ⟨⟨t, rfl, rfl, hport, fun _ => rfl⟩, ?_⟩
      rintro t' ⟨⟩
      exact hopens

theorem influxWriterNew_ok_iff {c : InfluxConfig} {token : String} :
    influxWriterNew out c = .ok token ↔
      c.readToken out.readToString = .ok token ∧ out.buildClient = .ok () := by
  unfold influxWriterNew
  simp only [bind_eq_ok_iff, mapError_ok_iff]
  constructor
  · rintro ⟨token', htoken, ⟨⟩, hclient, heq⟩
    obtain rfl := Except.ok.inj heq
    exact ⟨htoken, hclient⟩
  · rintro ⟨htoken, hclient⟩
    exact ⟨token, htoken, (), hclient, rfl⟩

/-- The metrics endpoint has the key of its file, if there is one. -/
theorem readApiKey_none {readToString : String → Except String String} {c : MetricsConfig}
    (h : c.readApiKey readToString = .ok none) : c.apiKeyFile = none := by
  unfold MetricsConfig.readApiKey at h
  split at h
  · next hfile => exact hfile
  · next path hfile =>
    cases hsecret : readSecret readToString path "metrics API key file is empty" with
    | error e =>
      rw [hsecret] at h
      cases h
    | ok key =>
      rw [hsecret] at h
      cases h

/-! ### Coming up -/

section Start

variable (hl : cfg.ListenersValid uiAddr metricsAddr) (hout : out.Documented free)
include hl

theorem health_ok_iff {r : Option Socket} :
    ifEnabled cfg.health.enabled (withContext "Failed to start the health listener"
      (bindHealth out [] HEALTH_BIND cfg.health.port)) = .ok r ↔
      Binds out [] (sockets cfg .health) r :=
  listener_ok_iff (hl.isSome_addr .health)

include hout

theorem ui_ok_iff {bound : List Socket} {r : Option Socket} :
    ifEnabled cfg.ui.enabled (withContext "Failed to start the debug UI"
      (bindUi out bound cfg.ui.bind cfg.ui.port)) = .ok r ↔
      r = sockets cfg .ui ∧ ∀ s ∈ r, Opens free bound s :=
  (listener_ok_iff (hl.isSome_addr .ui)).trans (binds_iff hout fun _ => port_ne (l := .ui) hl nofun)

theorem startMetrics_ok_iff {bound : List Socket} (henabled : cfg.metrics.enabled = true)
    {m : Socket × Option String} : startMetrics out bound cfg.metrics = .ok m ↔
      cfg.metrics.readApiKey out.readToString = .ok m.2 ∧ m.1 ∈ sockets cfg .metrics ∧
        Opens free bound m.1 := by
  have hbind : ∀ s, bindMetrics out bound cfg.metrics.bind cfg.metrics.port = .ok s ↔
      s ∈ sockets cfg .metrics ∧ Opens free bound s := by
    intro s
    rw [bindMetrics, bindListener_ok_iff]
    constructor
    · rintro ⟨addr, haddr, hbound⟩
      have hmem : (⟨addr, cfg.metrics.port⟩ : Socket) ∈ sockets cfg .metrics :=
        mem_sockets.mpr ⟨henabled, haddr, rfl⟩
      obtain ⟨rfl, hopens⟩ := (hout.given _ _ _ (port_ne hl (by simp) hmem)).mp hbound
      exact ⟨hmem, hopens⟩
    · rintro ⟨hmem, hopens⟩
      obtain ⟨-, haddr, hport⟩ := mem_sockets.mp hmem
      have hbound := (hout.given bound s s (port_ne hl (by simp) hmem)).mpr ⟨rfl, hopens⟩
      have hsocket : (⟨s.addr, cfg.metrics.port⟩ : Socket) = s :=
        congrArg (Socket.mk s.addr) hport.symm
      exact ⟨s.addr, haddr, hsocket.symm ▸ hbound⟩
  unfold startMetrics
  simp only [bind_eq_ok_iff, withContext_ok_iff, mapError_ok_iff, hbind]
  constructor
  · rintro ⟨key, hkey, s, hs, heq⟩
    obtain rfl := Except.ok.inj heq
    exact ⟨hkey, hs⟩
  · rintro ⟨hkey, hs⟩
    exact ⟨m.2, hkey, m.1, hs, rfl⟩

theorem metrics_ok_iff {bound : List Socket} {r : Option (Socket × Option String)} :
    ifEnabled cfg.metrics.enabled (startMetrics out bound cfg.metrics) = .ok r ↔
      r.map Prod.fst = sockets cfg .metrics ∧ ∀ m ∈ r,
        cfg.metrics.readApiKey out.readToString = .ok m.2 ∧ Opens free bound m.1 := by
  rw [ifEnabled_ok_iff]
  by_cases henabled : cfg.metrics.enabled = true
  · have hsome : (sockets cfg .metrics).isSome = true :=
      isSome_sockets henabled (hl.isSome_addr .metrics)
    constructor
    · rintro (⟨-, m, hm, rfl⟩ | ⟨hnot, -⟩)
      · obtain ⟨hkey, hsocket, hopens⟩ := (startMetrics_ok_iff hl hout henabled).mp hm
        refine ⟨hsocket.symm, ?_⟩
        rintro m' ⟨⟩
        exact ⟨hkey, hopens⟩
      · rw [henabled] at hnot
        cases hnot
    · rintro ⟨hsocket, hm⟩
      cases r with
      | none =>
        rw [← hsocket] at hsome
        cases hsome
      | some m =>
        obtain ⟨hkey, hopens⟩ := hm m rfl
        have hmem : m.1 ∈ sockets cfg .metrics := hsocket.symm
        exact .inl ⟨henabled, m, (startMetrics_ok_iff hl hout henabled).mpr
          ⟨hkey, hmem, hopens⟩, rfl⟩
  · have hfalse : cfg.metrics.enabled = false := Bool.eq_false_iff.mpr henabled
    have hnone : sockets cfg .metrics = none := by
      show socketOf cfg.metrics.enabled _ _ = none
      rw [hfalse]
      rfl
    rw [hnone]
    constructor
    · rintro (⟨henabled', -⟩ | ⟨-, rfl⟩)
      · exact absurd henabled' henabled
      · exact ⟨rfl, nofun⟩
    · rintro ⟨hr, -⟩
      exact .inr ⟨hfalse, Option.map_eq_none_iff.mp hr⟩

/-- The steps of startup, each with what it takes. -/
theorem start_eq_ok_iff {st : Started} : start rt out cfg = .ok st ↔
    Binds out [] (sockets cfg .health) st.health ∧
    eventHubNew rt cfg.eventHubCapacity = .ok () ∧
    (cfg.influx.readToken out.readToString = .ok st.token ∧ out.buildClient = .ok ()) ∧
    (st.ui = sockets cfg .ui ∧ ∀ s ∈ st.ui, Opens free st.health.toList s) ∧
    (st.metrics.map Prod.fst = sockets cfg .metrics ∧ ∀ m ∈ st.metrics,
      cfg.metrics.readApiKey out.readToString = .ok m.2 ∧
        Opens free (st.health.toList ++ st.ui.toList) m.1) := by
  unfold start
  simp only [bind_eq_ok_iff, orFail_ok_iff, orPanic_ok_iff, withContext_ok_iff,
    influxWriterNew_ok_iff]
  simp only [health_ok_iff hl, ui_ok_iff hl hout, metrics_ok_iff hl hout]
  constructor
  · rintro ⟨health, hhealth, ⟨⟩, hhub, token, htoken, ui, hui, metrics, hmetrics, heq⟩
    obtain rfl := Except.ok.inj heq
    exact ⟨hhealth, hhub, htoken, hui, hmetrics⟩
  · rintro ⟨hhealth, hhub, htoken, hui, hmetrics⟩
    exact ⟨_, hhealth, (), hhub, _, htoken, _, hui, _, hmetrics, rfl⟩

end Start

/-- The socket that a listener is on. -/
def Started.socket (st : Started) : Listener → Option Socket
  | .health => st.health
  | .ui => st.ui
  | .metrics => st.metrics.map Prod.fst

theorem Clash.symm {s t : Socket} (h : Clash s t) : Clash t s :=
  ⟨h.1.symm, Set.inter_comm (serves s.addr) (serves t.addr) ▸ h.2⟩

/-- No socket is in the way of another, in whatever order they are bound. -/
def Apart (socket : Listener → Option Socket) : Prop :=
  ∀ l l', l ≠ l' → ∀ s ∈ socket l, ∀ s' ∈ socket l', ¬ Clash s s'

/-- Three pairs are enough. -/
theorem apart_of_pairs {socket : Listener → Option Socket}
    (huiHealth : ∀ s ∈ socket .health, ∀ s' ∈ socket .ui, ¬ Clash s s')
    (hmetricsHealth : ∀ s ∈ socket .health, ∀ s' ∈ socket .metrics, ¬ Clash s s')
    (hmetricsUi : ∀ s ∈ socket .ui, ∀ s' ∈ socket .metrics, ¬ Clash s s') :
    Apart socket := by
  intro l l' hne s hs s' hs' hclash
  cases l with
  | health =>
    cases l' with
    | health => exact hne rfl
    | ui => exact huiHealth s hs s' hs' hclash
    | metrics => exact hmetricsHealth s hs s' hs' hclash
  | ui =>
    cases l' with
    | health => exact huiHealth s' hs' s hs hclash.symm
    | ui => exact hne rfl
    | metrics => exact hmetricsUi s hs s' hs' hclash
  | metrics =>
    cases l' with
    | health => exact hmetricsHealth s' hs' s hs hclash.symm
    | ui => exact hmetricsUi s' hs' s hs hclash.symm
    | metrics => exact hne rfl

section Accepted

variable (hl : cfg.ListenersValid uiAddr metricsAddr) (hrt : rt.Documented slotSize)
  (hhub : cfg.eventHubCapacity ≠ 0) (hout : out.Documented free)
include hl hrt hhub hout

/-- What has come up shows what it took. -/
theorem startable_of_start {st : Started} (h : start rt out cfg = .ok st) :
    Startable slotSize out free cfg ∧ st.Complete out cfg := by
  obtain ⟨hbinds, hnew, ⟨htoken, hclient⟩, ⟨hui, hopenUi⟩, hmetrics, hopenMetrics⟩ :=
    (start_eq_ok_iff hl hout).mp h
  obtain ⟨hlistens, hopenHealth⟩ := hbinds.listensOn hout
  have hmem : ∀ s ∈ st.socket .metrics, ∃ m ∈ st.metrics, m.1 = s :=
    fun s hs => Option.map_eq_some_iff.mp hs
  have hopens : ∀ l, ∀ s ∈ st.socket l, free s := by
    intro l s hs
    cases l with
    | health => exact (hopenHealth s hs).1
    | ui => exact (hopenUi s hs).1
    | metrics =>
      obtain ⟨m, hm, rfl⟩ := hmem s hs
      exact (hopenMetrics m hm).2.1
  have hapart : Apart st.socket := by
    apply apart_of_pairs
    · intro s hs s' hs'
      exact (hopenUi s' hs').2 s (Option.mem_toList.mpr hs)
    · intro s hs s' hs'
      obtain ⟨m, hm, rfl⟩ := hmem s' hs'
      have hbound := (hopenMetrics m hm).2.2
      exact hbound s (List.mem_append_left _ (Option.mem_toList.mpr hs))
    · intro s hs s' hs'
      obtain ⟨m, hm, rfl⟩ := hmem s' hs'
      have hbound := (hopenMetrics m hm).2.2
      exact hbound s (List.mem_append_right _ (Option.mem_toList.mpr hs))
  -- a socket with a port is the one that the listener is on
  have hown : ∀ l, ∀ s ∈ sockets cfg l, s.port ≠ 0 → s ∈ st.socket l := by
    intro l s hs hport
    cases l with
    | health =>
      have hs' : sockets cfg .health = some s := hs
      rw [hs'] at hbinds
      have hone : ∀ s' ∈ some s, Socket.port s' ≠ 0 := by
        rintro s' ⟨⟩
        exact hport
      exact ((binds_iff hout hone).mp hbinds).1
    | ui => exact hui.trans hs
    | metrics => exact hmetrics.trans hs
  refine ⟨⟨(eventHubNew_eq_ok_iff hrt hhub).mp hnew, ⟨st.token, htoken⟩, hclient, ?_, ?_, ?_, ?_⟩,
    ⟨hlistens, hui, hmetrics, htoken, ?_⟩⟩
  · intro henabled
    obtain ⟨s, hs⟩ := Option.isSome_iff_exists.mp
      (isSome_sockets (l := .metrics) henabled (hl.isSome_addr .metrics))
    obtain ⟨m, hm, -⟩ := hmem s (hmetrics.trans hs)
    exact ⟨m.2, (hopenMetrics m hm).1⟩
  · exact fun l s hs hport => hopens l s (hown l s hs hport)
  · intro l l' hne s hs s' hs' hport hmapped
    have hports := ports_ne hl hne hs hs' hport
    refine hapart l l' hne s (hown l s hs hports.1) s' (hown l' s' hs' hports.2) ?_
    exact (clash_iff hl hne hs hs').mpr ⟨hport, hmapped⟩
  · intro s hs hport
    have hs' : sockets cfg .health = some s := hs
    rw [hs'] at hbinds
    generalize hr : st.health = r at hbinds
    cases hbinds with
    | @enabled _ t ht =>
      refine ⟨t, ht, fun l hne s' hs'' => ?_⟩
      exact hapart .health l hne.symm t hr s' (hown l s' hs'' (port_ne hl hne hs''))
  · intro m hm hnone
    have hkey := (hopenMetrics m hm).1
    rw [hnone] at hkey
    exact readApiKey_none hkey

omit hrt hhub in
/-- Where the liveness listener comes up, out of the way of the others. -/
theorem exists_health (h : Startable slotSize out free cfg) : ∃ r,
    Binds out [] (sockets cfg .health) r ∧
      ∀ l, l ≠ .health → ∀ s ∈ r, ∀ s' ∈ sockets cfg l, ¬ Clash s s' := by
  cases hs : sockets cfg .health with
  | none => exact ⟨none, .disabled, nofun⟩
  | some s =>
    by_cases hport : s.port = 0
    · obtain ⟨t, ht, hclear⟩ := h.chosen s hs hport
      refine ⟨some t, .enabled ht, ?_⟩
      rintro l hne t' ⟨⟩
      exact hclear l hne
    · have hbound : out.tcpBind [] s = .ok s :=
        (hout.given [] s s hport).mpr ⟨rfl, h.free .health s hs hport, nofun⟩
      refine ⟨some s, .enabled hbound, ?_⟩
      rintro l hne s' ⟨⟩ t ht hclash
      obtain ⟨hports, hmapped⟩ := (clash_iff hl hne.symm hs ht).mp hclash
      exact h.apart .health l hne.symm s hs t ht hports hmapped

/-- What it takes is enough. -/
theorem exists_start (h : Startable slotSize out free cfg) : ∃ st, start rt out cfg = .ok st := by
  obtain ⟨health, hbinds, hclear⟩ := exists_health hl hout h
  obtain ⟨token, htoken⟩ := h.token
  obtain ⟨key, hkey⟩ : ∃ key, cfg.metrics.enabled = true →
      cfg.metrics.readApiKey out.readToString = .ok key := by
    by_cases henabled : cfg.metrics.enabled = true
    · obtain ⟨key, hkey⟩ := h.apiKey henabled
      exact ⟨key, fun _ => hkey⟩
    · exact ⟨none, fun henabled' => absurd henabled' henabled⟩
  have hfree : ∀ l, l ≠ .health → ∀ s ∈ sockets cfg l, free s :=
    fun l hne s hs => h.free l s hs (port_ne hl hne hs)
  refine ⟨⟨health, token, sockets cfg .ui, (sockets cfg .metrics).map fun s => (s, key)⟩,
    (start_eq_ok_iff hl hout).mpr ⟨hbinds, (eventHubNew_eq_ok_iff hrt hhub).mpr h.hub,
      ⟨htoken, h.client⟩, ⟨rfl, ?_⟩, ?_, ?_⟩⟩
  · intro s hs
    refine ⟨hfree .ui nofun s hs, fun b hb => ?_⟩
    exact hclear .ui nofun b (Option.mem_toList.mp hb) s hs
  · rw [Option.map_map]
    exact Option.map_id'
  · intro m hm
    obtain ⟨s, hs, rfl⟩ := Option.map_eq_some_iff.mp hm
    refine ⟨hkey (mem_sockets.mp hs).1, hfree .metrics nofun s hs, fun b hb hclash => ?_⟩
    rcases List.mem_append.mp hb with hhealth | hui
    · exact hclear .metrics nofun b (Option.mem_toList.mp hhealth) s hs hclash
    · have hne : Listener.ui ≠ .metrics := nofun
      have hb' := Option.mem_toList.mp hui
      obtain ⟨hports, hmapped⟩ := (clash_iff hl hne hb' hs).mp hclash
      exact h.apart .ui .metrics hne b hb' s hs hports hmapped

end Accepted

/-- **The process comes up when the world lets it, and then with all that is enabled.** With an
accepted config startup succeeds exactly when the channel of the event hub is not too large, the
files can be read, the sockets are free outside, no two listeners have one address under two
spellings, and a port that the system chooses for the liveness listener is none of the others'. What
has come up is every listener that is enabled, on its own socket, and the metrics endpoint has a key
if it has a key file. -/
theorem start_ok_iff [F64 F] (hvalid : cfg.validate = .ok ()) (hrt : rt.Documented slotSize)
    (hout : out.Documented free) :
    ((∃ st, start rt out cfg = .ok st) ↔ Startable slotSize out free cfg) ∧
      ∀ st, start rt out cfg = .ok st → st.Complete out cfg := by
  have hcfg := (AppConfig.validate_eq_ok_iff cfg).mp hvalid
  obtain ⟨uiAddr, metricsAddr, hl⟩ := hcfg.listeners
  have hcomesUp : ∀ st, start rt out cfg = .ok st →
      Startable slotSize out free cfg ∧ st.Complete out cfg := fun _ h =>
    startable_of_start hl hrt hcfg.eventHubCapacity_ne hout h
  refine ⟨⟨?_, exists_start hl hrt hcfg.eventHubCapacity_ne hout⟩, fun st h => (hcomesUp st h).2⟩
  rintro ⟨st, h⟩
  exact (hcomesUp st h).1

/-! ### A quiet host -/

/-- Which sockets clash can be computed. -/
theorem clash_iff_or (s t : Socket) : Clash s t ↔
    s.port = t.port ∧ (addressesContend s.addr t.addr = true ∨ MappedClash s.addr t.addr) := by
  have hexact := contend_iff_common_iff s.addr t.addr
  refine and_congr_right fun _ => ?_
  by_cases hmapped : MappedClash s.addr t.addr
  · refine iff_of_true ?_ (.inr hmapped)
    obtain ⟨-, -, x, hx, y, hy, hxy⟩ := hmapped
    rw [serves_of_asIpv4 hx, serves_of_asIpv4 hy]
    exact (servesIpv4_inter_nonempty_iff x y).mpr hxy
  · rw [or_iff_left hmapped]
    exact (hexact.mpr hmapped).symm

instance (a b : IpAddr) : Decidable (MappedClash a b) :=
  inferInstanceAs (Decidable ((a.isIpv6 = true ∨ b.isIpv6 = true) ∧ a ≠ b ∧
    ∃ x ∈ a.asIpv4, ∃ y ∈ b.asIpv4, x = y ∨ x.isUnspecified = true ∨ y.isUnspecified = true))

instance (s t : Socket) : Decidable (Clash s t) := decidable_of_iff _ (clash_iff_or s t).symm

instance (free : Socket → Prop) [DecidablePred free] (bound : List Socket) (s : Socket) :
    Decidable (Opens free bound s) :=
  inferInstanceAs (Decidable (free s ∧ ∀ b ∈ bound, ¬ Clash b s))

/-- A host on which nothing else runs. -/
def quietHost : Outside where
  readToString _ := .ok "secret\n"
  buildClient := .ok ()
  tcpBind bound s :=
    let t : Socket := if s.port = 0 then ⟨s.addr, 49152⟩ else s
    if Opens (fun _ => True) bound t then .ok t
    else .error "Address already in use (os error 98)"

theorem quietHost_documented : quietHost.Documented fun _ => True where
  given bound s t hport := by
    simp only [quietHost, if_neg hport]
    split_ifs with h
    · rw [Except.ok.injEq, eq_comm]
      exact (and_iff_left h).symm
    · exact iff_of_false nofun fun hopens => h hopens.2
  chosen bound s t hport h := by
    simp only [quietHost, if_pos hport] at h
    split_ifs at h with hopens
    obtain rfl := Except.ok.inj h
    exact ⟨rfl, by simp, hopens⟩

/-- All three listeners, with a port of the liveness listener. -/
def listenersConfig (healthPort : UInt16) : AppConfig Decimal :=
  { AppConfig.ofInflux
      { InfluxConfig.default with url := "http://localhost:8086", org := "org", bucket := "bucket" }
      [] with
    ui := { enabled := true, bind := "10.0.0.1", port := 9115 }
    metrics := { enabled := true, bind := "::1", port := 9116, apiKeyFile := some "key" }
    health := { enabled := true, port := healthPort } }

/-- What comes up, with the liveness listener on a port. -/
def quietStarted (healthPort : UInt16) : Started where
  health := some ⟨.v4 .LOCALHOST, healthPort⟩
  token := "secret"
  ui := some ⟨.v4 ⟨10, 0, 0, 1⟩, 9115⟩
  metrics := some (⟨.v6 ⟨[0, 0, 0, 0, 0, 0, 0, 1], rfl⟩, 9116⟩, some "secret")

/-- Once the liveness listener shares the port of the UI, and once the system chooses its port. -/
theorem start_ok_iff_quietHost :
    (start (tokio 256) quietHost (listenersConfig 9115) = .ok (quietStarted 9115) ∧
      Startable 256 quietHost (fun _ => True) (listenersConfig 9115) ∧
      (quietStarted 9115).Complete quietHost (listenersConfig 9115)) ∧
    start (tokio 256) quietHost (listenersConfig 0) = .ok (quietStarted 49152) ∧
      Startable 256 quietHost (fun _ => True) (listenersConfig 0) ∧
      (quietStarted 49152).Complete quietHost (listenersConfig 0) := by
  have hup : ∀ port given, (listenersConfig port).validate = .ok () →
      start (tokio 256) quietHost (listenersConfig port) = .ok (quietStarted given) →
      start (tokio 256) quietHost (listenersConfig port) = .ok (quietStarted given) ∧
      Startable 256 quietHost (fun _ => True) (listenersConfig port) ∧
      (quietStarted given).Complete quietHost (listenersConfig port) := by
    intro port given hvalid hstart
    obtain ⟨hiff, hcomplete⟩ := start_ok_iff hvalid (documented_tokio 256) quietHost_documented
    exact ⟨hstart, hiff.mp ⟨_, hstart⟩, hcomplete _ hstart⟩
  exact ⟨hup 9115 9115 (by decide +kernel) (by decide +kernel),
    hup 0 49152 (by decide +kernel) (by decide +kernel)⟩

end Huginn.Main
