import Huginn.Influx.Correct.Pipeline
import Huginn.Influx.FlushTimer
import Huginn.Lib.Progress

/-!
# How long a result waits in the batcher

The flush timer is set after every flush, and before anything that is received after it. So nothing
is in the buffer for longer than `batch_timeout_ms`, whatever else is received in the meantime, and
all that is received gets queued (`FlushTimer.queued_in_time`).

That the runtime gets to the timer in time says that the clock stops short of what is due. What is
due can always be done, by the batcher alone, so the clock is never stopped for good
(`FlushTimer.time_passes`).
-/

namespace Huginn.Influx

namespace FlushTimer

variable {F : Type} [F64 F] {args : FlushArgs} {late cap : ℕ} {s t : FlushTimer F}
  {a : FlushAction F} {as : List (FlushAction F)} {p : Pipeline F}

/-- What a step can do. -/
inductive StepTo (args : FlushArgs) (s : FlushTimer F) : FlushAction F → FlushTimer F → Prop
  | pass (now : ℕ) (hle : s.clock ≤ now) : StepTo args s (.pass now) { s with clock := now }
  | act (b : PipelineAction F) (p : Pipeline F) (hp : s.pipeline.step args.pipeline b = some p) :
      StepTo args s (.act b) (s.afterStep args b p)

theorem step_to (h : s.step args a = some t) : StepTo args s a t := by
  unfold step at h
  split at h
  · next now =>
    rw [Option.ite_none_right_eq_some, Option.some.injEq] at h
    exact h.2 ▸ .pass now h.1
  · rw [Option.ite_none_right_eq_some, Option.map_eq_some_iff] at h
    obtain ⟨-, p, hp, rfl⟩ := h
    exact .act .timer p hp
  · next b _ =>
    obtain ⟨p, hp, rfl⟩ := Option.map_eq_some_iff.mp h
    exact .act b p hp

/-- The batcher still waits for its timer, or has just been woken. -/
def Waits (p : Pipeline F) : Prop := p.batcher = .select ∨ ∃ last, p.batcher = .enqueue last

/-- What is in the buffer arrived after the timer was set, and the timer is not overdue. -/
structure Inv (args : FlushArgs) (late : ℕ) (s : FlushTimer F) : Prop where
  buffered : s.arrivals.map Prod.fst = s.pipeline.buffer
  past : ∀ w ∈ s.arrivals, w.2 ≤ s.clock
  arrivals : ∀ w ∈ s.arrivals, s.flushDeadline ≤ w.2 + args.batchTimeoutMs
  onTime : Waits s.pipeline → s.clock ≤ s.flushDeadline + late
  deadline : s.flushDeadline ≤ s.clock + args.batchTimeoutMs
  queued : ∀ w ∈ s.queued, w.queued ≤ w.received + args.batchTimeoutMs + late
  pushed : s.queued.map Queued.result = s.pipeline.pushed.flatMap Pushed.results

omit [F64 F] in
theorem inv_new : Inv args late (new args cap : FlushTimer F) where
  buffered := rfl
  past := fun _ h => absurd h List.not_mem_nil
  arrivals := fun _ h => absurd h List.not_mem_nil
  onTime := fun _ => Nat.zero_le _
  deadline := (Nat.zero_add _).symm.le
  queued := fun _ h => absurd h List.not_mem_nil
  pushed := rfl

namespace Inv

omit [F64 F]

/-- Time passes. -/
theorem pass {now : ℕ} (hi : Inv args late s) (hle : s.clock ≤ now)
    (hprompt : Prompt late s (.pass now)) : Inv args late { s with clock := now } := by
  refine ⟨hi.buffered, fun w hmem => (hi.past w hmem).trans hle, hi.arrivals, fun hw => ?_, ?_,
    hi.queued, hi.pushed⟩
  · show now ≤ s.flushDeadline + late
    unfold Prompt at hprompt
    rcases hw with hb | ⟨last, hb⟩
    · have hb' : s.pipeline.batcher = .select := hb
      rw [hb'] at hprompt
      exact hprompt
    · have hb' : s.pipeline.batcher = .enqueue last := hb
      rw [hb'] at hprompt
      exact hprompt.trans (hi.onTime (.inr ⟨last, hb'⟩))
  · show s.flushDeadline ≤ now + args.batchTimeoutMs
    have hdeadline := hi.deadline
    omega

/-- The two tasks go on without a result received or queued. -/
theorem keep (hi : Inv args late s) (hw : Waits p → Waits s.pipeline)
    (hbuf : p.buffer = s.pipeline.buffer) (hpush : p.pushed = s.pipeline.pushed) :
    Inv args late { s with pipeline := p } where
  buffered := hi.buffered.trans hbuf.symm
  past := hi.past
  arrivals := hi.arrivals
  onTime := fun h => hi.onTime (hw h)
  deadline := hi.deadline
  queued := hi.queued
  pushed := by rw [hi.pushed, hpush]

/-- A result is received. -/
theorem recv (hi : Inv args late s) (r : ProbeResult F) (hw : Waits s.pipeline)
    (hbuf : p.buffer = s.pipeline.buffer ++ [r]) (hpush : p.pushed = s.pipeline.pushed) :
    Inv args late { s with pipeline := p, arrivals := s.arrivals ++ [(r, s.clock)] } where
  buffered := by
    show (s.arrivals ++ [(r, s.clock)]).map Prod.fst = p.buffer
    rw [List.map_append, hi.buffered, hbuf]
    rfl
  past := by
    intro w hw
    rcases List.mem_append.mp hw with hold | hnew
    · exact hi.past w hold
    · rw [List.mem_singleton.mp hnew]
  arrivals := by
    intro w hw
    rcases List.mem_append.mp hw with hold | hnew
    · exact hi.arrivals w hold
    · rw [List.mem_singleton.mp hnew]
      exact hi.deadline
  onTime := fun _ => hi.onTime hw
  deadline := hi.deadline
  queued := hi.queued
  pushed := by rw [hi.pushed, hpush]

/-- The buffer is queued. -/
theorem flush (hi : Inv args late s) (last : Bool) (hb : s.pipeline.batcher = .enqueue last)
    (hafter : p.batcher = Pipeline.afterEnqueue last) (hbuf : p.buffer = [])
    (hpush : p.pushed.flatMap Pushed.results =
      s.pipeline.pushed.flatMap Pushed.results ++ s.pipeline.buffer) :
    Inv args late (s.afterStep args .enqueue p) where
  buffered := hbuf.symm
  past := fun _ h => absurd h List.not_mem_nil
  arrivals := fun _ h => absurd h List.not_mem_nil
  onTime := by
    intro hw
    cases last with
    | true =>
      rcases hw with hp | ⟨l, hp⟩
      all_goals cases hp.symm.trans hafter
    | false =>
      have hnew : (s.afterStep args .enqueue p).flushDeadline = s.clock + args.batchTimeoutMs :=
        if_neg (by rw [hb]; simp)
      rw [hnew]
      show s.clock ≤ s.clock + args.batchTimeoutMs + late
      omega
  deadline := by
    show (if _ then _ else _) ≤ s.clock + args.batchTimeoutMs
    split
    · exact hi.deadline
    · exact le_rfl
  queued := by
    intro w hw
    rcases List.mem_append.mp hw with hold | hnew
    · exact hi.queued w hold
    · obtain ⟨v, hv, rfl⟩ := List.mem_map.mp hnew
      have hdue : s.flushDeadline ≤ v.2 + args.batchTimeoutMs := hi.arrivals v hv
      have htime : s.clock ≤ s.flushDeadline + late := hi.onTime (.inr ⟨last, hb⟩)
      show s.clock ≤ v.2 + args.batchTimeoutMs + late
      omega
  pushed := by
    show (s.queued ++ s.arrivals.map _).map Queued.result = p.pushed.flatMap Pushed.results
    rw [List.map_append, List.map_map, hpush, hi.pushed, ← hi.buffered]
    rfl

end Inv

/-- A step of the two tasks. -/
theorem inv_act {b : PipelineAction F} (hi : Inv args late s)
    (h : s.pipeline.step args.pipeline b = some p) : Inv args late (s.afterStep args b p) := by
  cases Pipeline.step_to h with
  | recvOk r hb => exact hi.recv r (.inl hb) rfl rfl
  | recvClosed hb => exact hi.keep (fun _ => .inl hb) rfl rfl
  | timer hb => exact hi.keep (fun _ => .inl hb) rfl rfl
  | enqueueEmpty last hb hbuf => exact hi.flush last hb rfl hbuf (by rw [hbuf, List.append_nil])
  | enqueue last hb hbuf hp =>
    refine hi.flush last hb rfl rfl ?_
    rw [List.flatMap_append, List.flatMap_singleton]
  | close hb hp =>
    refine hi.keep (fun hw => ?_) rfl rfl
    rcases hw with hw | ⟨last, hw⟩
    all_goals cases hw
  | recvLagged | notifyOne | notifyWaiters | call | wait | retSome | retNone | accepted | rejected
  | retry | pop | sleep | shutdown => exact hi.keep id rfl rfl

theorem inv_step (hi : Inv args late s) (hprompt : Prompt late s a)
    (h : s.step args a = some t) : Inv args late t := by
  cases step_to h with
  | pass now hle => exact hi.pass hle hprompt
  | act b p hp => exact inv_act hi hp

theorem inv_run (h : Run (step args) (Prompt late) (new args cap) as s) : Inv args late s :=
  h.invariant inv_new fun _ _ _ hi hprompt hst => inv_step hi hprompt hst

omit [F64 F] in
theorem pipeline_afterStep (s : FlushTimer F) (b : PipelineAction F) (p : Pipeline F) :
    (s.afterStep args b p).pipeline = p := by
  unfold afterStep
  split
  all_goals rfl

/-- Without its timer this is a run of the two tasks. -/
theorem pipeline_run (h : Run (step args) (Prompt late) (new args cap) as s) :
    ∃ bs, FreeRun (Pipeline.step args.pipeline) (.new cap) bs s.pipeline := by
  refine Run.simulate (I := fun _ => True) FlushTimer.pipeline h trivial
    (fun _ _ _ _ _ _ => trivial) fun t a u _ _ hst => ?_
  cases step_to hst with
  | pass now hle => exact .inl rfl
  | act b p hp =>
    exact .inr ⟨b, trivial, (pipeline_afterStep t b p).symm ▸ hp⟩

omit [F64 F] in
/-- How old what is in the buffer of a batcher that waits can be. -/
theorem Inv.age (hi : Inv args late s) (hw : Waits s.pipeline) {w : ProbeResult F × ℕ}
    (hmem : w ∈ s.arrivals) : s.clock ≤ w.2 + args.batchTimeoutMs + late := by
  have hdue : s.flushDeadline ≤ w.2 + args.batchTimeoutMs := hi.arrivals w hmem
  have htime : s.clock ≤ s.flushDeadline + late := hi.onTime hw
  omega

theorem batcherInv_run (hsize : 1 ≤ args.pipeline.batchSize)
    (h : Run (step args) (Prompt late) (new args cap) as s) :
    s.pipeline.BatcherInv args.pipeline := by
  obtain ⟨bs, hbs⟩ := pipeline_run h
  exact Pipeline.batcherInv_run hsize hbs

/-- What was queued and what is in the buffer is all that was received. -/
theorem accounted (hsize : 1 ≤ args.pipeline.batchSize)
    (h : Run (step args) (Prompt late) (new args cap) as s) :
    s.queued.map Queued.result ++ s.arrivals.map Prod.fst = s.pipeline.received := by
  have hi : Inv args late s := inv_run h
  rw [hi.pushed, hi.buffered, (batcherInv_run hsize h).conserved]

/-- Once the batcher waits for nothing more, its buffer is empty. -/
theorem arrivals_of_not_waits (hsize : 1 ≤ args.pipeline.batchSize)
    (h : Run (step args) (Prompt late) (new args cap) as s) (hw : ¬ Waits s.pipeline) :
    s.arrivals = [] := by
  have hbuffer := (batcherInv_run hsize h).buffer
  have hempty : s.pipeline.buffer = [] := by
    cases hb : s.pipeline.batcher with
    | select => exact absurd (.inl hb) hw
    | enqueue last => exact absurd (.inr ⟨last, hb⟩) hw
    | close | exited => simpa only [Pipeline.BufferOk, hb] using hbuffer
  rw [← (inv_run h).buffered, List.map_eq_nil_iff] at hempty
  exact hempty

/-! ### Nothing holds up the clock -/

/-- No call to the queue is open when the batcher makes the next. -/
def Ready (p : Pipeline F) : Prop :=
  match p.batcher with
  | .select => p.sys.producer = .idle ∨ p.sys.producer = .notifyOne
  | .enqueue _ => p.sys.producer = .idle
  | .close | .exited => True

omit [F64 F] in
theorem ready_of_eq {q : Pipeline F} (hr : Ready p) (hb : q.batcher = p.batcher)
    (hp : q.sys.producer = p.sys.producer) : Ready q := by
  unfold Ready at hr ⊢
  rwa [hb, hp]

omit [F64 F] in
theorem ready_afterEnqueue (last : Bool) (hb : p.batcher = Pipeline.afterEnqueue last)
    (hp : p.sys.producer = .idle ∨ p.sys.producer = .notifyOne) : Ready p := by
  unfold Ready
  rw [hb]
  cases last with
  | false => exact hp
  | true => trivial

theorem ready_step {b : PipelineAction F} {q : Pipeline F} {args : PipelineArgs} (hr : Ready p)
    (h : p.step args b = some q) : Ready q := by
  cases Pipeline.step_to h with
  | recvOk r hb hp =>
    unfold Ready
    by_cases hfull : (p.buffer ++ [r]).length ≥ args.batchSize
    · simp only [if_pos hfull]
      exact hp
    · simp only [if_neg hfull]
      exact .inl hp
  | recvClosed hb hp | timer hb hp => exact hp
  | enqueueEmpty last hb hbuf =>
    have hidle : p.sys.producer = .idle := by simpa only [Ready, hb] using hr
    exact ready_afterEnqueue last rfl (.inl hidle)
  | enqueue last hb hbuf hp => exact ready_afterEnqueue last rfl (.inr rfl)
  | notifyOne hp =>
    cases hb : p.batcher with
    | select => simp only [Ready, true_or]
    | enqueue last => simp only [Ready]
    | close | exited => simp only [Ready]
  | close hb hp => trivial
  | notifyWaiters hp =>
    -- `notify_waiters` is called after the last flush only
    cases hb : p.batcher with
    | select | enqueue last => simp [Ready, hb, hp] at hr
    | close | exited => simp only [Ready]
  | wait sys hw hsys => exact ready_of_eq hr rfl hsys.producer_eq
  | recvLagged | call | retSome | retNone | accepted | rejected | retry | pop | sleep | shutdown =>
    exact ready_of_eq hr rfl rfl

theorem ready_run (h : Run (step args) (Prompt late) (new args cap) as s) : Ready s.pipeline := by
  obtain ⟨bs, hbs⟩ := pipeline_run h
  have hnew : Ready (Pipeline.new cap : Pipeline F) := .inl rfl
  exact hbs.invariant hnew fun _ _ _ hr _ hst => ready_step hr hst

/-- What the batcher does when nothing is received: it waits for its timer, and flushes. -/
def ByTimer (_ : FlushTimer F) : FlushAction F → Prop
  | .pass _ | .act .timer | .act .enqueue | .act .notifyOne => True
  | .act _ => False

/-- How many steps there are at most until some time: three for every flush, and the waits between
them. -/
def stepsUntil (time : ℕ) (s : FlushTimer F) : ℕ :=
  (time - s.clock) +
    match s.pipeline.batcher with
    | .select =>
      3 * (time - s.flushDeadline) + if s.pipeline.sys.producer = .notifyOne then 1 else 0
    | .enqueue _ => 3 * (time - (s.clock + 1)) + 2
    | .close | .exited => 0

/-- A flush. -/
theorem exists_enqueue (hpos : 0 < args.batchTimeoutMs) {last : Bool}
    (hb : s.pipeline.batcher = .enqueue last) (hidle : s.pipeline.sys.producer = .idle)
    (time : ℕ) : ∃ t, s.step args (.act .enqueue) = some t ∧
      t.stepsUntil time < s.stepsUntil time := by
  obtain ⟨p, hp, hafter, hproducer⟩ : ∃ p, s.pipeline.enqueueStep last = some p ∧
      p.batcher = Pipeline.afterEnqueue last ∧
        (p.sys.producer = .idle ∨ p.sys.producer = .notifyOne) := by
    unfold Pipeline.enqueueStep
    split_ifs
    · exact ⟨_, rfl, rfl, .inl hidle⟩
    · simp only [QueueSys.step, if_pos hidle]
      exact ⟨_, rfl, rfl, .inr rfl⟩
  refine ⟨s.afterStep args .enqueue p, ?_, ?_⟩
  · simp only [step, Pipeline.step, hb, hp, Option.map_some]
  · cases last with
    | true =>
      have hclose : p.batcher = .close := hafter
      simp only [stepsUntil, afterStep, hb, hclose]
      omega
    | false =>
      have hselect : p.batcher = .select := hafter
      have hone : (if p.sys.producer = .notifyOne then 1 else 0) ≤ 1 := by split_ifs <;> simp
      simp only [stepsUntil, afterStep, hb, hselect, BatcherPc.enqueue.injEq, Bool.false_eq_true,
        if_false]
      omega

/-- What is due can be done, and until something is due the time can pass. -/
theorem exists_step (late : ℕ) (hpos : 0 < args.batchTimeoutMs) (hr : Ready s.pipeline)
    {time : ℕ} (htime : s.clock < time) :
    ∃ a t, (Prompt late s a ∧ s.ByTimer a) ∧ s.step args a = some t ∧
      t.stepsUntil time < s.stepsUntil time := by
  cases hb : s.pipeline.batcher with
  | select =>
    have hopen : s.pipeline.sys.producer = .idle ∨ s.pipeline.sys.producer = .notifyOne := by
      simpa only [Ready, hb] using hr
    by_cases hdue : s.flushDeadline ≤ s.clock
    · rcases hopen with hidle | hnotify
      · refine ⟨.act .timer, s.afterStep args .timer { s.pipeline with batcher := .enqueue false },
          ⟨trivial, trivial⟩, ?_, ?_⟩
        · simp only [step, if_pos hdue, Pipeline.step, hb, hidle, and_self, if_true,
            Option.map_some]
        · simp only [stepsUntil, afterStep, hb]
          omega
      · refine ⟨.act .notifyOne, s.afterStep args .notifyOne { s.pipeline with
          sys := { s.pipeline.sys with
            queue := s.pipeline.sys.queue.notifyOne, producer := .idle } },
          ⟨trivial, trivial⟩, ?_, ?_⟩
        · simp only [step, Pipeline.step, QueueSys.step, if_pos hnotify, Option.map_some]
        · simp [stepsUntil, afterStep, hb, hnotify]
    · refine ⟨.pass (min time s.flushDeadline), { s with clock := min time s.flushDeadline },
        ⟨?_, trivial⟩, if_pos (by omega), ?_⟩
      · simp only [Prompt, hb]
        omega
      · simp only [stepsUntil, hb]
        omega
  | enqueue last =>
    have hidle : s.pipeline.sys.producer = .idle := by simpa only [Ready, hb] using hr
    obtain ⟨t, hst, hlt⟩ := exists_enqueue hpos hb hidle time
    exact ⟨.act .enqueue, t, ⟨trivial, trivial⟩, hst, hlt⟩
  | close | exited =>
    refine ⟨.pass time, { s with clock := time }, ⟨?_, trivial⟩, if_pos htime.le, ?_⟩
    · simp only [Prompt, hb]
    · simp only [stepsUntil, hb]
      omega

/-- Without a result received nothing gets into the buffer. -/
theorem byTimer_run {bs : List (FlushAction F)} (h : Run (step args) ByTimer s bs t) :
    t.pipeline.received = s.pipeline.received ∧ t.arrivals ⊆ s.arrivals := by
  refine h.invariant (I := fun u : FlushTimer F =>
    u.pipeline.received = s.pipeline.received ∧ u.arrivals ⊆ s.arrivals)
    ⟨rfl, List.Subset.refl _⟩ fun u a v hu hok hst => ?_
  cases step_to hst with
  | pass now hle => exact hu
  | act b p hp =>
    cases Pipeline.step_to hp with
    | enqueueEmpty | enqueue => exact ⟨hu.1, List.nil_subset _⟩
    | timer | notifyOne => exact hu
    | recvOk | recvLagged | recvClosed | close | notifyWaiters | call | wait | retSome | retNone
    | accepted | rejected | retry | pop | sleep | shutdown => cases hok

/-- **Nothing holds up the clock.** Where nothing more is received, the batcher by itself can go on
until any time, with everything done when it is due. -/
theorem time_passes (late : ℕ) (hpos : 0 < args.batchTimeoutMs) (hr : Ready s.pipeline)
    (time : ℕ) : ∃ bs t, Run (step args) (fun s a => Prompt late s a ∧ s.ByTimer a) s bs t ∧
      time ≤ t.clock := by
  have hprogress : ∀ s : FlushTimer F, Ready s.pipeline → ¬ time ≤ s.clock →
      ∃ a t, (Prompt late s a ∧ s.ByTimer a) ∧ s.step args a = some t ∧ Ready t.pipeline ∧
        t.stepsUntil time < s.stepsUntil time := by
    intro s hr hlate
    obtain ⟨a, t, hok, hst, hlt⟩ := exists_step late hpos hr (Nat.lt_of_not_le hlate)
    refine ⟨a, t, hok, hst, ?_, hlt⟩
    cases step_to hst with
    | pass now hle => exact hr
    | act b p hp => exact (pipeline_afterStep s b p).symm ▸ ready_step hr hp
  obtain ⟨bs, t, -, hrun, -, htime⟩ :=
    Run.exists_until (fun s : FlushTimer F => time ≤ s.clock) hprogress hr
  exact ⟨bs, t, hrun, htime⟩

/-- **Nothing waits in the batcher for longer than `batch_timeout_ms`**, and `late` milliseconds
for the runtime to get to the timer: all that was queued was queued in that time, and nothing older
is in the buffer of a batcher that still waits. What was queued and what is in the buffer is all
that was received, in order. And from wherever the two tasks are, any time can be reached without
another result received, with all that was received queued by then. -/
theorem queued_in_time (hsize : 1 ≤ args.pipeline.batchSize)
    (h : Run (step args) (Prompt late) (new args cap) as s) :
    (∀ w ∈ s.queued, w.queued ≤ w.received + args.batchTimeoutMs + late) ∧
    (Waits s.pipeline → ∀ w ∈ s.arrivals, s.clock ≤ w.2 + args.batchTimeoutMs + late) ∧
    s.queued.map Queued.result ++ s.arrivals.map Prod.fst = s.pipeline.received ∧
    s.queued.map Queued.result = s.pipeline.pushed.flatMap Pushed.results ∧
    (0 < args.batchTimeoutMs → ∀ time, ∃ bs t,
      Run (step args) (fun s a => Prompt late s a ∧ s.ByTimer a) s bs t ∧ time ≤ t.clock ∧
        t.queued.map Queued.result = s.pipeline.received) := by
  have hi : Inv args late s := inv_run h
  refine ⟨hi.queued, fun hw w hmem => hi.age hw hmem, accounted hsize h, hi.pushed, ?_⟩
  intro hpos time
  obtain ⟨bs, t, hrun, htime⟩ := time_passes late hpos (ready_run h)
    (max time (s.clock + args.batchTimeoutMs + late + 1))
  have hon : Run (step args) (Prompt late) (new args cap) (as ++ bs) t :=
    h.trans (hrun.mono fun _ _ hok => hok.1)
  obtain ⟨hreceived, hsub⟩ := byTimer_run (hrun.mono fun _ _ hok => hok.2)
  have hnone : t.arrivals = [] := by
    by_cases hw : Waits t.pipeline
    · refine List.eq_nil_iff_forall_not_mem.mpr fun w hmem => ?_
      have hage := (inv_run hon).age hw hmem
      have hpast := hi.past w (hsub hmem)
      omega
    · exact arrivals_of_not_waits hsize hon hw
  refine ⟨bs, t, hrun, le_trans (le_max_left _ _) htime, ?_⟩
  rw [← hreceived, ← accounted hsize hon, hnone, List.map_nil, List.append_nil]

instance (s : FlushTimer F) (a : FlushAction F) : Decidable (Prompt late s a) :=
  match a with
  | .act _ => .isTrue trivial
  | .pass now =>
    match hb : s.pipeline.batcher with
    | .select => decidable_of_iff (now ≤ s.flushDeadline + late) (by simp only [Prompt, hb])
    | .enqueue _ => decidable_of_iff (now ≤ s.clock) (by simp only [Prompt, hb])
    | .close | .exited => .isTrue (by simp only [Prompt, hb])

/-- Batches of ten results, or of what has come in a second. -/
def byTheSecond : FlushArgs := ⟨⟨10, .fromMillis 500, .fromMillis 30000⟩, 1000⟩

/-- One result comes, and no other. -/
def partialBatch : List (FlushAction Decimal) :=
  [.pass 400, .act (.recv (.ok sampleResult)), .pass 1005, .act .timer, .act .enqueue]

theorem queued_in_time_partialBatch :
    ∃ s, Run (step byTheSecond) (Prompt 5) (new byTheSecond 1024) partialBatch s ∧
      s.queued.map Queued.result = [sampleResult] ∧
      (∀ w ∈ s.queued, w.queued ≤ w.received + byTheSecond.batchTimeoutMs + 5) ∧
      ∃ bs t, Run (step byTheSecond) (Prompt 5) s bs t ∧ 1000000 ≤ t.clock := by
  obtain ⟨s, hs⟩ : ∃ s, runActions (step byTheSecond) (Prompt 5) (new byTheSecond 1024)
      partialBatch = some s := ⟨_, rfl⟩
  have hend : s.queued.map Queued.result = [sampleResult] := by
    obtain rfl := Option.some.inj hs
    rfl
  have hrun := run_of_runActions _ hs
  obtain ⟨hqueued, -, -, -, hgoes⟩ := queued_in_time (by decide) hrun
  obtain ⟨bs, t, hon, htime, -⟩ := hgoes (by decide) 1000000
  exact ⟨s, hrun, hend, hqueued, bs, t, hon.mono fun _ _ hok => hok.1, htime⟩

end FlushTimer

end Huginn.Influx
