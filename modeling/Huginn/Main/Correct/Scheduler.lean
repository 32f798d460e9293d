import Huginn.Lib.Progress
import Huginn.Main.Scheduler
import Huginn.Probes.Correct.Deadline
import Mathlib.Data.List.Perm.Subperm

/-!
# How often a probe runs, and how old its result can get

A probe is started at most once in each of its intervals (`TimedLoop.one_start_per_interval`), and
exactly at their beginnings where its timeout fits into the interval (`TimedLoop.starts_on_time`).
Whatever a target does, the newest result of its probe is never older than the interval and the time
that the probe may take (`TimedLoop.never_silent`).

That the runtime is prompt says that no time passes over what is due. It asks nothing that the loop
could not do: what is due can always be done, and so the clock can always go on
(`TimedLoop.time_passes`).
-/

namespace Huginn.Main

open Probes Future

namespace TimedLoop

variable {F : Type} [F64 F] {cfg : ProbeConfig F} {late : ℕ} {s t : TimedLoop F}
  {a : TimedAction F} {as : List (TimedAction F)}

/-! ### What a step does -/

inductive StepTo (cfg : ProbeConfig F) (s : TimedLoop F) : TimedAction F → TimedLoop F → Prop
  | pass (now : ℕ) (hle : s.clock ≤ now) : StepTo cfg s (.pass now) { s with clock := now }
  | tick (since : ℕ) (w : World F) (hpc : s.pc = .waiting since) (hdue : s.ticker.Due s.clock) :
      StepTo cfg s (.tick w) { s with
        pc := .probing s.clock w
        ticker := s.ticker.tick s.clock
        starts := s.starts ++ [s.clock] }
  | publish (started millis : ℕ) (w : World F) (r : ProbeResult F) (hpc : s.pc = .probing started w)
      (hexec : execute w cfg = .ready millis r) (hle : started + millis ≤ s.clock) :
      StepTo cfg s .publish { s with
        pc := .waiting s.clock
        published := s.published ++ [(s.clock, r)] }
  | stop (hpc : s.pc ≠ .stopped) : StepTo cfg s .stop { s with pc := .stopped }

theorem step_to (h : s.step cfg a = some t) : StepTo cfg s a t := by
  cases a with
  | pass now =>
    rw [step, Option.ite_none_right_eq_some, Option.some.injEq] at h
    exact h.2 ▸ .pass now h.1
  | tick w =>
    have htick : s.tickStep w = some t := h
    unfold tickStep at htick
    split at htick
    · next since hpc =>
      rw [Option.ite_none_right_eq_some, Option.some.injEq] at htick
      exact htick.2 ▸ .tick since w hpc htick.1
    all_goals cases htick
  | publish =>
    have hpublish : s.publishStep cfg = some t := h
    unfold publishStep at hpublish
    split at hpublish
    · next started w hpc =>
      split at hpublish
      · next millis r hexec =>
        rw [Option.ite_none_right_eq_some, Option.some.injEq] at hpublish
        exact hpublish.2 ▸ .publish started millis w r hpc hexec hpublish.1
      · cases hpublish
    all_goals cases hpublish
  | stop =>
    unfold step at h
    dsimp only at h
    split at h
    · next since hpc => exact Option.some.inj h ▸ .stop (by simp [hpc])
    · next started w hpc => exact Option.some.inj h ▸ .stop (by simp [hpc])
    · cases h

/-! ### The times of the probe -/

/-- `interval_secs`, in milliseconds. -/
def period (cfg : ProbeConfig F) : ℕ := 1000 * cfg.intervalSecs.toNat

/-- What a probe may take: its timeout, and twice that for the two waits of a UDP probe. -/
def budget (cfg : ProbeConfig F) : ℕ :=
  if cfg.probeType = .udp then 2 * (1000 * cfg.timeoutSecs.toNat) else 1000 * cfg.timeoutSecs.toNat

omit [F64 F] in
theorem asMillis_interval : cfg.interval.asMillis = period cfg :=
  Duration.asMillis_fromSecs cfg.intervalSecs

omit [F64 F] in
theorem udp_within (w : World F) :
    Within (2 * (1000 * cfg.timeoutSecs.toNat)) (Udp.probe w cfg) := by
  rw [two_mul, ← asMillis_timeout]
  unfold Udp.probe
  refine within_bind within_withProbeTimeout fun outcome => ?_
  rcases outcome with msg | (_ | ⟨addr, addrs⟩)
  · exact within_pure _ _
  · exact within_pure _ _
  · dsimp only
    cases sendQuery w addr with
    | error msg => exact within_pure _ _
    | ok =>
      refine within_of_one_wait fun received => ?_
      cases received with
      | error msg => exact ⟨_, rfl⟩
      | ok n =>
        dsimp only
        split_ifs
        · exact ⟨_, rfl⟩
        · exact ⟨_, rfl⟩

/-- **Every probe is over within its budget**, whatever the world does. -/
theorem execute_within_budget (w : World F) (cfg : ProbeConfig F) :
    Within (budget cfg) (execute w cfg) := by
  unfold budget
  split_ifs with hudp
  · rw [execute, hudp]
    exact udp_within w
  · exact execute_within hudp

/-! ### One start in each interval -/

/-- The ticker is at the multiples of the period, and past every start. -/
structure TickInv (cfg : ProbeConfig F) (s : TimedLoop F) : Prop where
  wf : s.ticker.Wf
  period : s.ticker.period = period cfg
  past : ∀ start ∈ s.starts, start < s.ticker.deadline ∧ start ≤ s.clock
  apart : s.starts.Pairwise fun a b => a / TimedLoop.period cfg < b / TimedLoop.period cfg

omit [F64 F] in
theorem tickInv_new (hpos : cfg.intervalSecs ≠ 0) : TickInv cfg (new cfg) where
  wf := by
    refine Interval.wf_start ?_
    rw [asMillis_interval, TimedLoop.period]
    have hne : cfg.intervalSecs.toNat ≠ 0 := fun h => hpos (UInt64.toNat_inj.mp h)
    omega
  period := asMillis_interval
  past := fun _ h => absurd h List.not_mem_nil
  apart := .nil

theorem tickInv_step (hi : s.TickInv cfg) (h : s.step cfg a = some t) : t.TickInv cfg := by
  cases step_to h with
  | pass now hle =>
    exact ⟨hi.wf, hi.period, fun start hs => ⟨(hi.past start hs).1, (hi.past start hs).2.trans hle⟩,
      hi.apart⟩
  | tick since w hpc hdue =>
    have hbounds := Interval.tick_bounds hi.wf s.clock
    refine ⟨hi.wf.tick hdue, hi.period, ?_, ?_⟩
    · intro start hs
      rcases List.mem_append.mp hs with hold | hnew
      · have hlt := (hi.past start hold).1
        have hle := (hi.past start hold).2
        exact ⟨by show start < (s.ticker.tick s.clock).deadline; omega, hle⟩
      · obtain rfl := List.mem_singleton.mp hnew
        exact ⟨hbounds.1, le_refl _⟩
    · rw [List.pairwise_append]
      refine ⟨hi.apart, List.pairwise_singleton _ _, ?_⟩
      intro start hs now hnow
      obtain rfl := List.mem_singleton.mp hnow
      rw [← hi.period]
      exact Interval.div_lt_div hi.wf (hi.past start hs).1 hdue
  | publish started millis w r hpc hexec hle => exact ⟨hi.wf, hi.period, hi.past, hi.apart⟩
  | stop => exact ⟨hi.wf, hi.period, hi.past, hi.apart⟩

/-- Numbers that increase and stay below a bound are no more than that. -/
theorem length_le_of_pairwise_lt {l : List ℕ} {n : ℕ} (hl : l.Pairwise (· < ·))
    (hle : ∀ a ∈ l, a ≤ n) : l.length ≤ n + 1 := by
  have hnodup : l.Nodup := hl.imp fun hlt => Nat.ne_of_lt hlt
  have hsub : l ⊆ List.range (n + 1) := by
    intro a ha
    exact List.mem_range.mpr (Nat.lt_succ_of_le (hle a ha))
  have hlen := (hnodup.subperm hsub).length_le
  rwa [List.length_range] at hlen

/-- **A probe is started at most once in each interval.** In every run, however late the runtime is
and whatever the probes take, any two starts are in different intervals since the loop was spawned,
in order; so there are never more than one for each interval that has begun. -/
theorem one_start_per_interval {F : Type} [F64 F] {cfg : ProbeConfig F}
    {as : List (TimedAction F)} {s : TimedLoop F} (hpos : cfg.intervalSecs ≠ 0)
    (h : FreeRun (step cfg) (new cfg) as s) :
    s.starts.Pairwise (fun a b => a / period cfg < b / period cfg) ∧
      s.starts.length ≤ s.clock / period cfg + 1 := by
  have hi : s.TickInv cfg :=
    h.invariant (tickInv_new hpos) fun _ _ _ hi _ hst => tickInv_step hi hst
  refine ⟨hi.apart, ?_⟩
  have hmap : (s.starts.map (· / period cfg)).Pairwise (· < ·) := List.pairwise_map.mpr hi.apart
  have hlen := length_le_of_pairwise_lt (n := s.clock / period cfg) hmap fun a ha => by
    obtain ⟨start, hs, rfl⟩ := List.mem_map.mp ha
    exact Nat.div_le_div_right (hi.past start hs).2
  rwa [List.length_map] at hlen

/-- A TCP probe with an interval of a minute and a timeout of five seconds. -/
def tcpConfig : ProbeConfig Decimal :=
  { ProbeConfig.default with
    name := "web", probeType := .tcp, target := "localhost:80"
    intervalSecs := 60, timeoutSecs := 5 }

/-- The target never answers, and the runtime oversleeps the second minute. -/
def oversleep : List (TimedAction Decimal) :=
  [.tick (silentWorld 0), .pass 5000, .publish, .pass 130000, .tick (silentWorld 0), .pass 135000,
    .publish, .pass 180000, .tick (silentWorld 0)]

theorem one_start_per_interval_oversleep :
    ∃ s, FreeRun (step tcpConfig) (new tcpConfig) oversleep s ∧ s.starts = [0, 130000, 180000] ∧
      s.starts.Pairwise fun a b => a / period tcpConfig < b / period tcpConfig := by
  obtain ⟨s, hs⟩ : ∃ s, runActions (step tcpConfig) (fun _ _ => True) (new tcpConfig) oversleep =
      some s := ⟨_, rfl⟩
  have hstarts : s.starts = [0, 130000, 180000] := by
    obtain rfl := Option.some.inj hs
    rfl
  have hrun := run_of_runActions _ hs
  exact ⟨s, hrun, hstarts, (one_start_per_interval (by decide) hrun).1⟩

/-! ### How old the newest result gets -/

/-- Everything that is due is seen to in time: the next tick at most an interval after the newest
result, and the end of a probe within its budget. -/
structure FreshInv (cfg : ProbeConfig F) (late : ℕ) (s : TimedLoop F) : Prop where
  ticker : s.ticker.Wf ∧ s.ticker.period = period cfg
  waiting : ∀ since, s.pc = .waiting since → since = s.newest ∧
    s.ticker.deadline ≤ s.newest + period cfg ∧ s.newest ≤ s.clock ∧
      s.clock ≤ max s.ticker.deadline since + late
  probing : ∀ started w, s.pc = .probing started w →
    started ≤ s.newest + period cfg + late ∧ s.ticker.deadline ≤ started + period cfg ∧
      started ≤ s.clock ∧
        ∀ millis r, execute w cfg = .ready millis r → s.clock ≤ started + millis + late

omit [F64 F] in
@[simp]
theorem newest_publish (ticker : Interval) (r : ProbeResult F) :
    newest { s with
      pc := .waiting s.clock, ticker := ticker, published := s.published ++ [(s.clock, r)] } =
        s.clock := by
  simp [newest]

theorem freshInv_new (hpos : cfg.intervalSecs ≠ 0) : FreshInv cfg late (new cfg) where
  ticker := ⟨(tickInv_new hpos).wf, (tickInv_new hpos).period⟩
  waiting := by
    intro since hpc
    obtain rfl := TimedPc.waiting.inj hpc
    exact ⟨rfl, Nat.zero_le _, le_refl _, Nat.zero_le _⟩
  probing := fun _ _ hpc => by cases hpc

theorem freshInv_step (hi : s.FreshInv cfg late) (hok : s.Prompt cfg late a)
    (h : s.step cfg a = some t) : t.FreshInv cfg late := by
  cases step_to h with
  | pass now hle =>
    have hprompt : ∀ time, s.due cfg = some time → now ≤ time + late := hok
    refine ⟨hi.ticker, ?_, ?_⟩
    · intro since hpc
      obtain ⟨hsince, hdeadline, hnewest, -⟩ := hi.waiting since hpc
      refine ⟨hsince, hdeadline, hnewest.trans hle, hprompt _ ?_⟩
      have hpc' : s.pc = .waiting since := hpc
      simp only [due, hpc']
    · intro started w hpc
      obtain ⟨hstarted, hdeadline, hclock, -⟩ := hi.probing started w hpc
      refine ⟨hstarted, hdeadline, hclock.trans hle, fun millis r hexec => hprompt _ ?_⟩
      have hpc' : s.pc = .probing started w := hpc
      simp only [due, hpc', hexec]
  | tick since w hpc hdue =>
    obtain ⟨hsince, hdeadline, hnewest, hclock⟩ := hi.waiting since hpc
    have hbounds := Interval.tick_bounds hi.ticker.1 s.clock
    have hwf := hi.ticker.1.tick hdue
    have hperiod := hi.ticker.2
    refine ⟨⟨hwf, hperiod⟩, fun since' hpc' => (by cases hpc'), ?_⟩
    intro started w' hpc'
    obtain ⟨rfl, rfl⟩ := TimedPc.probing.inj hpc'
    refine ⟨?_, ?_, le_refl _, fun millis r hexec => ?_⟩
    · show s.clock ≤ s.newest + period cfg + late
      omega
    · show (s.ticker.tick s.clock).deadline ≤ s.clock + period cfg
      omega
    · show s.clock ≤ s.clock + millis + late
      omega
  | publish started millis w r hpc hexec hle =>
    obtain ⟨hstarted, hdeadline, hclock, -⟩ := hi.probing started w hpc
    refine ⟨hi.ticker, ?_, fun started' w' hpc' => (by cases hpc')⟩
    intro since hpc'
    obtain rfl := TimedPc.waiting.inj hpc'
    rw [newest_publish]
    refine ⟨rfl, ?_, le_refl _, ?_⟩
    · show s.ticker.deadline ≤ s.clock + period cfg
      omega
    · show s.clock ≤ max s.ticker.deadline s.clock + late
      omega
  | stop => exact ⟨hi.ticker, fun _ hpc => (by cases hpc), fun _ _ hpc => (by cases hpc)⟩

/-- The newest result of a loop that has not been stopped. -/
theorem FreshInv.age (hi : s.FreshInv cfg late) (hrunning : s.pc ≠ .stopped) :
    s.clock ≤ s.newest + period cfg + budget cfg + 2 * late := by
  cases hpc : s.pc with
  | waiting since =>
    obtain ⟨hsince, hdeadline, -, hclock⟩ := hi.waiting since hpc
    omega
  | probing started w =>
    obtain ⟨hstarted, -, -, hclock⟩ := hi.probing started w hpc
    obtain ⟨millis, r, hexec, hmillis⟩ := execute_within_budget w cfg
    have hlate := hclock millis r hexec
    omega
  | stopped => exact absurd hpc hrunning

/-! ### Nothing holds up the clock -/

/-- A probe that is started at some time meets the world of that time, and the loop is not told to
stop. -/
def GoesOn (worlds : ℕ → World F) (s : TimedLoop F) : TimedAction F → Prop
  | .tick world => world = worlds s.clock
  | .pass _ | .publish => True
  | .stop => False

/-- How many steps there are at most until some time: the ticks, the ends of the probes, and the
waits between them. -/
def stepsUntil (time : ℕ) (s : TimedLoop F) : ℕ :=
  (time - s.clock) + 2 * (time - s.ticker.deadline) +
    match s.pc with
    | .waiting _ | .stopped => 0
    | .probing _ _ => 1

/-- What is due can be done, and until something is due the time can pass. -/
theorem exists_step (hi : s.FreshInv cfg late) (hrunning : s.pc ≠ .stopped)
    (worlds : ℕ → World F) {time : ℕ} (htime : s.clock < time) :
    ∃ a t, (s.Prompt cfg late a ∧ s.GoesOn worlds a) ∧ s.step cfg a = some t ∧
      t.pc ≠ .stopped ∧ t.stepsUntil time < s.stepsUntil time := by
  cases hpc : s.pc with
  | waiting since =>
    by_cases hdue : s.ticker.Due s.clock
    · have hbounds := Interval.tick_bounds hi.ticker.1 s.clock
      have hle : s.ticker.deadline ≤ s.clock := hdue
      refine ⟨.tick (worlds s.clock), { s with
        pc := .probing s.clock (worlds s.clock)
        ticker := s.ticker.tick s.clock
        starts := s.starts ++ [s.clock] }, ⟨trivial, rfl⟩, ?_, nofun, ?_⟩
      · simp only [step, tickStep, hpc, if_pos hdue]
      · simp only [stepsUntil, hpc]
        omega
    · have hlt : s.clock < s.ticker.deadline := Nat.lt_of_not_le hdue
      refine ⟨.pass (min time s.ticker.deadline), { s with clock := min time s.ticker.deadline },
        ⟨?_, trivial⟩, ?_, ?_, ?_⟩
      · intro limit hlimit
        simp only [due, hpc, Option.mem_def, Option.some.injEq] at hlimit
        omega
      · exact if_pos (by omega)
      · simp [hpc]
      · simp only [stepsUntil, hpc]
        omega
  | probing started w =>
    obtain ⟨millis, r, hexec, -⟩ := execute_within_budget w cfg
    by_cases hover : started + millis ≤ s.clock
    · refine ⟨.publish, { s with
        pc := .waiting s.clock
        published := s.published ++ [(s.clock, r)] }, ⟨trivial, trivial⟩, ?_, nofun, ?_⟩
      · simp only [step, publishStep, hpc, hexec, if_pos hover]
      · simp only [stepsUntil, hpc]
        omega
    · refine ⟨.pass (min time (started + millis)), { s with clock := min time (started + millis) },
        ⟨?_, trivial⟩, ?_, ?_, ?_⟩
      · intro limit hlimit
        simp only [due, hpc, hexec, Option.mem_def, Option.some.injEq] at hlimit
        omega
      · exact if_pos (by omega)
      · simp [hpc]
      · simp only [stepsUntil, hpc]
        omega
  | stopped => exact absurd hpc hrunning

/-- **Nothing holds up the clock.** Whatever a probe meets, a loop that is not stopped can go on
until any time, with everything seen to when it is due. -/
theorem time_passes (hi : s.FreshInv cfg late) (hrunning : s.pc ≠ .stopped)
    (worlds : ℕ → World F) (time : ℕ) :
    ∃ bs t, Run (step cfg) (fun s a => s.Prompt cfg late a ∧ s.GoesOn worlds a) s bs t ∧
      t.FreshInv cfg late ∧ t.pc ≠ .stopped ∧ time ≤ t.clock := by
  have hprogress : ∀ s : TimedLoop F, s.FreshInv cfg late ∧ s.pc ≠ .stopped → ¬ time ≤ s.clock →
      ∃ a t, (s.Prompt cfg late a ∧ s.GoesOn worlds a) ∧ s.step cfg a = some t ∧
        (t.FreshInv cfg late ∧ t.pc ≠ .stopped) ∧ t.stepsUntil time < s.stepsUntil time := by
    rintro s ⟨hi, hrunning⟩ hlate
    obtain ⟨a, t, hok, hst, ht, hlt⟩ := exists_step hi hrunning worlds (Nat.lt_of_not_le hlate)
    exact ⟨a, t, hok, hst, ⟨freshInv_step hi hok.1 hst, ht⟩, hlt⟩
  obtain ⟨bs, t, -, hrun, ⟨ht, hgoes⟩, htime⟩ :=
    Run.exists_until (fun s : TimedLoop F => time ≤ s.clock) hprogress ⟨hi, hrunning⟩
  exact ⟨bs, t, hrun, ht, hgoes, htime⟩

instance (s : TimedLoop F) : (a : TimedAction F) → Decidable (s.Prompt cfg late a)
  | .pass now => inferInstanceAs (Decidable (∀ time ∈ s.due cfg, now ≤ time + late))
  | .tick _ | .publish | .stop => .isTrue trivial

/-- The loop keeps to the multiples of its period. -/
structure OnTimeInv (cfg : ProbeConfig F) (s : TimedLoop F) : Prop where
  ticker : s.ticker.Wf ∧ s.ticker.period = period cfg
  starts : s.starts = (List.range s.starts.length).map (period cfg * ·)
  deadline : s.ticker.deadline = period cfg * s.starts.length
  waiting : ∀ since, s.pc = .waiting since → since ≤ s.ticker.deadline ∧
    s.clock ≤ s.ticker.deadline
  probing : ∀ started w, s.pc = .probing started w → started + period cfg = s.ticker.deadline ∧
    ∀ millis r, execute w cfg = .ready millis r → s.clock ≤ started + millis

theorem onTimeInv_new (hpos : cfg.intervalSecs ≠ 0) : OnTimeInv cfg (new cfg) := by
  have hi := tickInv_new hpos
  refine ⟨⟨hi.wf, hi.period⟩, rfl, (Nat.mul_zero _).symm, ?_, fun _ _ hpc => (by cases hpc)⟩
  intro since hpc
  obtain rfl := TimedPc.waiting.inj hpc
  exact ⟨le_refl _, le_refl _⟩

theorem onTimeInv_step (hfits : budget cfg ≤ period cfg) (hi : s.OnTimeInv cfg)
    (hok : s.Prompt cfg 0 a) (h : s.step cfg a = some t) : t.OnTimeInv cfg := by
  cases step_to h with
  | pass now hle =>
    have hprompt : ∀ time, s.due cfg = some time → now ≤ time + 0 := hok
    refine ⟨hi.ticker, hi.starts, hi.deadline, ?_, ?_⟩
    · intro since hpc
      have hpc' : s.pc = .waiting since := hpc
      obtain ⟨hsince, -⟩ := hi.waiting since hpc
      have hnow := hprompt (max s.ticker.deadline since) (by simp only [due, hpc'])
      exact ⟨hsince, by show now ≤ s.ticker.deadline; omega⟩
    · intro started w hpc
      have hpc' : s.pc = .probing started w := hpc
      refine ⟨(hi.probing started w hpc).1, fun millis r hexec => ?_⟩
      exact hprompt (started + millis) (by simp only [due, hpc', hexec])
  | tick since w hpc hdue =>
    -- the tick is observed in the moment it is due
    obtain ⟨-, hclock⟩ := hi.waiting since hpc
    have hle : s.ticker.deadline ≤ s.clock := hdue
    have hnow : s.clock = s.ticker.deadline := by omega
    have hperiod := hi.ticker.2
    have hpos := hi.ticker.1.period_pos
    have hnext : (s.ticker.tick s.clock).deadline = s.ticker.deadline + s.ticker.period :=
      Interval.deadline_tick_of_lt hdue (by omega)
    have hlen : (s.starts ++ [s.clock]).length = s.starts.length + 1 := List.length_append
    refine ⟨⟨hi.ticker.1.tick hdue, hperiod⟩, ?_, ?_, fun _ hpc' => (by cases hpc'), ?_⟩
    · show s.starts ++ [s.clock] = (List.range (s.starts ++ [s.clock]).length).map _
      rw [hlen, List.range_succ, List.map_append, ← hi.starts, hnow, hi.deadline]
      rfl
    · show (s.ticker.tick s.clock).deadline = period cfg * (s.starts ++ [s.clock]).length
      rw [hnext, hlen, hi.deadline, hperiod, Nat.mul_add, Nat.mul_one]
    · intro started w' hpc'
      obtain ⟨rfl, rfl⟩ := TimedPc.probing.inj hpc'
      refine ⟨?_, fun millis r hexec => Nat.le_add_right _ _⟩
      show s.clock + period cfg = (s.ticker.tick s.clock).deadline
      rw [hnext, hnow, hperiod]
  | publish started millis w r hpc hexec hle =>
    obtain ⟨hstarted, hclock⟩ := hi.probing started w hpc
    have hlate := hclock millis r hexec
    obtain ⟨millis', r', hexec', hmillis⟩ := execute_within_budget w cfg
    obtain ⟨rfl, -⟩ := Future.ready.inj (hexec.symm.trans hexec')
    refine ⟨hi.ticker, hi.starts, hi.deadline, ?_, fun _ _ hpc' => (by cases hpc')⟩
    intro since hpc'
    obtain rfl := TimedPc.waiting.inj hpc'
    have hend : s.clock ≤ s.ticker.deadline := by omega
    exact ⟨hend, hend⟩
  | stop =>
    exact ⟨hi.ticker, hi.starts, hi.deadline, fun _ hpc => (by cases hpc),
      fun _ _ hpc => (by cases hpc)⟩

/-- The starts of a loop that has not been stopped keep up with the clock. -/
theorem OnTimeInv.clock_le (hfits : budget cfg ≤ period cfg) (hi : s.OnTimeInv cfg)
    (hrunning : s.pc ≠ .stopped) : s.clock ≤ period cfg * s.starts.length := by
  rw [← hi.deadline]
  cases hpc : s.pc with
  | waiting since => exact (hi.waiting since hpc).2
  | probing started w =>
    obtain ⟨hstarted, hclock⟩ := hi.probing started w hpc
    obtain ⟨millis, r, hexec, hmillis⟩ := execute_within_budget w cfg
    have hlate := hclock millis r hexec
    omega
  | stopped => exact absurd hpc hrunning

/-- **A probe whose budget fits into its interval runs like clockwork.** On a runtime that is never
late, and whatever its target does, its runs begin exactly at the multiples of the interval, and
none is left out: as long as the loop is not stopped there is one for every multiple that has
passed, and the loop can go on until there are as many as one likes. -/
theorem starts_on_time {F : Type} [F64 F] {cfg : ProbeConfig F} {as : List (TimedAction F)}
    {s : TimedLoop F} (hpos : cfg.intervalSecs ≠ 0) (hfits : budget cfg ≤ period cfg)
    (h : Run (step cfg) (Prompt cfg 0) (new cfg) as s) :
    s.starts = (List.range s.starts.length).map (period cfg * ·) ∧
      (s.pc ≠ .stopped → s.clock ≤ period cfg * s.starts.length ∧
        ∀ (worlds : ℕ → World F) (n : ℕ), ∃ bs t,
          Run (step cfg) (fun s a => s.Prompt cfg 0 a ∧ s.GoesOn worlds a) s bs t ∧
            t.pc ≠ .stopped ∧ n ≤ t.starts.length) := by
  have hstep : ∀ (s : TimedLoop F) a t, s.OnTimeInv cfg → s.Prompt cfg 0 a → s.step cfg a = some t →
      t.OnTimeInv cfg := fun _ _ _ hi hok hst => onTimeInv_step hfits hi hok hst
  have hi : s.OnTimeInv cfg := h.invariant (onTimeInv_new hpos) hstep
  have hfresh : s.FreshInv cfg 0 :=
    h.invariant (freshInv_new hpos) fun _ _ _ hi hok hst => freshInv_step hi hok hst
  refine ⟨hi.starts, fun hrunning => ⟨hi.clock_le hfits hrunning, fun worlds n => ?_⟩⟩
  obtain ⟨bs, t, hrun, -, hgoes, htime⟩ := time_passes hfresh hrunning worlds (period cfg * n)
  have ht : t.OnTimeInv cfg := hrun.invariant hi fun s a t hi hok hst => hstep s a t hi hok.1 hst
  have hpos' : 0 < period cfg := ht.ticker.2 ▸ ht.ticker.1.period_pos
  have hclock := htime.trans (ht.clock_le hfits hgoes)
  exact ⟨bs, t, hrun, hgoes, Nat.le_of_mul_le_mul_left hclock hpos'⟩

/-- Three runs of a probe that takes all of its time. -/
def threeRuns : List (TimedAction Decimal) :=
  [.tick (silentWorld 0), .pass 5000, .publish, .pass 60000, .tick (silentWorld 0), .pass 65000,
    .publish, .pass 120000, .tick (silentWorld 0)]

theorem starts_on_time_threeRuns :
    ∃ s, Run (step tcpConfig) (Prompt tcpConfig 0) (new tcpConfig) threeRuns s ∧
      s.starts = [0, 60000, 120000] ∧
      ∃ bs t, Run (step tcpConfig) (Prompt tcpConfig 0) s bs t ∧ 1000 ≤ t.starts.length := by
  obtain ⟨s, hs⟩ : ∃ s, runActions (step tcpConfig) (Prompt tcpConfig 0) (new tcpConfig) threeRuns =
      some s := ⟨_, rfl⟩
  have hend : s.starts.length = 3 ∧ s.pc ≠ .stopped := by
    obtain rfl := Option.some.inj hs
    exact ⟨rfl, by simp⟩
  have hrun := run_of_runActions _ hs
  obtain ⟨hstarts, hgoes⟩ := starts_on_time (by decide) (by decide) hrun
  rw [hend.1] at hstarts
  obtain ⟨bs, t, hon, -, hlen⟩ := (hgoes hend.2).2 (fun _ => silentWorld 0) 1000
  exact ⟨s, hrun, hstarts, bs, t, hon.mono fun _ _ hok => hok.1, hlen⟩

/-! ### The loop of the process -/

/-- Where the loop stands when nobody looks at the clock. -/
def untimed (s : TimedLoop F) : LoopPc :=
  match s.pc with
  | .waiting _ => .waiting
  | .probing _ _ => .probing
  | .stopped => .stopped

/-- What a step is for the process: nothing, or a step of this loop, with the result that is
published. -/
def UntimedTo (s : TimedLoop F) (i : ℕ) (l : ProbeLoop) (p p' : Process F) (t : TimedLoop F) :
    TimedAction F → Prop
  | .pass _ => p' = p ∧ t.untimed = s.untimed
  | .tick _ => p.loopStep i (.tick i) = some p' ∧ p'.loops[i]? = some { l with pc := t.untimed }
  | .publish => ∃ r, t.published = s.published ++ [(s.clock, r)] ∧
      p.loopStep i (.publish i r) = some p' ∧ p'.loops[i]? = some { l with pc := t.untimed }
  | .stop => l.aborted = true → p.loopStep i (.cancel i) = some p' ∧
      p'.loops[i]? = some { l with pc := t.untimed }

/-- **The timed loop is the loop of the process**, with its times. -/
theorem exists_untimed {i : ℕ} {l : ProbeLoop} {p : Process F} (hl : p.loops[i]? = some l)
    (hpc : l.pc = s.untimed) (h : s.step cfg a = some t) : ∃ p', s.UntimedTo i l p p' t a := by
  obtain ⟨hlt, -⟩ := List.getElem?_eq_some_iff.mp hl
  cases step_to h with
  | pass now hle => exact ⟨p, rfl, rfl⟩
  | tick since w hspc hdue =>
    have hwaiting : l.pc = .waiting := by rw [hpc, untimed, hspc]
    refine ⟨{ p with loops := p.loops.set i { l with pc := .probing } }, ?_, ?_⟩
    · simp only [Process.loopStep, hl, Option.bind_eq_bind, Option.bind_some, hwaiting]
    · exact List.getElem?_set_self hlt
  | publish started millis w r hspc hexec hle =>
    have hprobing : l.pc = .probing := by rw [hpc, untimed, hspc]
    refine ⟨{ p with
      loops := p.loops.set i { l with pc := .waiting }, hub := p.hub.send r }, r, rfl, ?_, ?_⟩
    · simp only [Process.loopStep, hl, Option.bind_eq_bind, Option.bind_some, hprobing]
    · exact List.getElem?_set_self hlt
  | stop hspc =>
    refine ⟨{ p with
      loops := p.loops.set i { l with pc := .stopped }, hub := p.hub.dropSender }, fun habort => ?_⟩
    refine ⟨?_, List.getElem?_set_self hlt⟩
    cases hs : s.pc with
    | waiting since =>
      have hwaiting : l.pc = .waiting := by rw [hpc, untimed, hs]
      simp only [Process.loopStep, hl, Option.bind_eq_bind, Option.bind_some, hwaiting, habort,
        if_true]
    | probing started w =>
      have hprobing : l.pc = .probing := by rw [hpc, untimed, hs]
      simp only [Process.loopStep, hl, Option.bind_eq_bind, Option.bind_some, hprobing, habort,
        if_true]
    | stopped => exact absurd hs hspc

end TimedLoop

end Huginn.Main
