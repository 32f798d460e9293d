import Huginn.Lib.Progress
import Huginn.Main.Correct.Subscribers

/-!
# What becomes of what is published

Every subscriber receives what is published in order, or is told how much it has missed
(`Daemon.subscribers_account`). So when the process ends in a drain that leaves nothing, every
result was published into a batch with a fate, or missed by the batcher and counted
(`Daemon.published_accounted`), and the web state can catch up at any time
(`Daemon.web_catches_up`).
-/

namespace Huginn.Main

open Influx Web

namespace Daemon

variable {F : Type} [F64 F] {args : DaemonArgs} {s t : Daemon F} {a : DaemonAction F}
  {as : List (DaemonAction F)} {f : Feed (ProbeResult F)}

/-! ### The accounts of the subscribers -/

/-- A subscriber that has been there from the beginning. -/
structure Accounted (published : List (ProbeResult F)) (f : Feed (ProbeResult F)) : Prop where
  /-- Nothing is received twice, out of order, or that was not published. -/
  sublist : f.received.Sublist published
  /-- What it has read is received or counted. -/
  counted : f.received.length + f.missed = f.next
  /-- It has everything that it has read exactly as long as nothing was reported as missed. -/
  complete : f.received = published.take f.next ↔ f.missed = 0
  /-- Nothing that is published comes after the end. -/
  ended : f.ended = true → f.next = published.length

omit [F64 F] in
theorem accounted_of_inv {hub : Broadcast (ProbeResult F)} (hf : f.Inv hub) (hstart : f.start = 0) :
    Accounted hub.sent f := by
  have hdue : f.due hub = hub.sent.take f.next := by rw [Feed.due, hstart, List.drop_zero]
  have hsub := hf.sublist
  have hcount := hf.accounted
  rw [hdue] at hsub
  refine ⟨hsub.trans (List.take_sublist _ _), by omega, ?_, fun hended => (hf.ended hended).2⟩
  rw [← hdue]
  exact hf.received_eq_iff

/-- **Every subscriber accounts for everything published.** In every run, whatever the others do and
however late they read, the console, the batcher and the web state each receive what is published
in order and at most once, are told exactly how much they have missed, and are told of the end
after everything else. -/
theorem subscribers_account {F : Type} [F64 F] {args : DaemonArgs} {as : List (DaemonAction F)}
    {s : Daemon F} (h : FreeRun (step args) (new args) as s) :
    ∀ f ∈ s.subscribers, Accounted s.process.hub.sent f := by
  intro f hf
  obtain ⟨hinv, hstart⟩ := (inv_run h).feeds f hf
  exact accounted_of_inv hinv hstart

/-- The hub of one probe that keeps two events, with the web state. -/
def sampleDaemonArgs : DaemonArgs := ⟨⟨⟨2, .fromMillis 500, .fromMillis 30000⟩, 1024, 1, 2⟩, true⟩

/-- Startup, with the web state. -/
def startup : List (DaemonAction Decimal) :=
  [.process .start, .process .start, .startWeb, .process .start, .process .start, .process .start]

/-- One run of the probe. -/
def probeOnce : List (DaemonAction Decimal) :=
  [.process (.tick 0), .process (.publish 0 sampleResult)]

/-- The console only reads after three results, the first of which is gone. -/
def slowConsole : List (DaemonAction Decimal) :=
  startup ++ probeOnce ++ [.insert] ++ probeOnce ++ [.process .recv, .send] ++ probeOnce ++
    [.print, .print, .insert]

theorem subscribers_account_slowConsole :
    ∃ s, FreeRun (step sampleDaemonArgs) (new sampleDaemonArgs) slowConsole s ∧
      s.console.log = [.lagged 1, .ok sampleResult] ∧
      ∀ f ∈ s.subscribers, Accounted s.process.hub.sent f := by
  obtain ⟨s, hs⟩ : ∃ s, runActions (step sampleDaemonArgs) (fun _ _ => True) (new sampleDaemonArgs)
      slowConsole = some s := ⟨_, rfl⟩
  have hlog : s.console.log = [.lagged 1, .ok sampleResult] := by
    obtain rfl := Option.some.inj hs
    rfl
  have hrun := run_of_runActions _ hs
  exact ⟨s, hrun, hlog, subscribers_account hrun⟩

/-! ### From the probe to the answer -/

/-- **Nothing that was published is lost silently.** In every run that ends with the report that the
writer drained cleanly, with all its steps leaving nothing, the batcher was told of the end: every
result published is in a batch that was accepted, rejected or counted as evicted, or else it is
among those that the batcher was told it had missed. With none of those, the batches are exactly
what was published. -/
theorem published_accounted {F : Type} [F64 F] {args : DaemonArgs} {as : List (DaemonAction F)}
    {s : Daemon F} (hsize : 1 ≤ args.process.pipeline.batchSize)
    (h : Run (step args) LeavesNothing (new args) as s)
    (hclean : s.process.main = .finished .drainedCleanly) :
    s.process.pipeline.Drained ∧
      (s.process.pipeline.pushed.flatMap Pushed.results).Sublist s.process.hub.sent ∧
      (s.process.pipeline.pushed.flatMap Pushed.results).length + s.batcher.missed =
        s.process.hub.sent.length ∧
      (s.process.pipeline.pushed.flatMap Pushed.results = s.process.hub.sent ↔
        s.batcher.missed = 0) := by
  have hi := inv_run h
  obtain ⟨bs, hbs⟩ : ∃ bs, Run (Process.step args.process) Process.LeavesNothing
      (.new args.process) bs s.process := process_run (fun _ _ hok => hok) h
  have hdrained : s.process.pipeline.Drained := Process.drained_of_report hsize hbs hclean
  have hended : s.batcher.ended = true := hi.batcher.ended.mpr (.inr (.inr hdrained.exited))
  obtain ⟨hf, hstart⟩ := hi.feeds s.batcher (mem_subscribers.mpr (.inr (.inl rfl)))
  have hacc := accounted_of_inv hf hstart
  have hnext := hacc.ended hended
  have hreceived : s.process.pipeline.pushed.flatMap Pushed.results = s.batcher.received :=
    hdrained.received.trans hi.batcher.received
  have hcomplete := hacc.complete
  rw [hnext, List.take_length] at hcomplete
  rw [hreceived]
  exact ⟨hdrained, hacc.sublist, hnext ▸ hacc.counted, hcomplete⟩

/-- The writer is not told to stop, and the queue is closed while it is not looking. -/
def closesQuietly (s : Daemon F) : DaemonAction F → Bool
  | .process .abandon => false
  | .process (.pipeline .close) => s.process.pipeline.sys.wait == .idle
  | _ => true

omit [F64 F] in
theorem leavesNothing_of_closesQuietly (h : s.closesQuietly a = true) : s.LeavesNothing a := by
  unfold LeavesNothing
  split
  · next b =>
    constructor
    · rintro rfl
      cases h
    · rintro rfl hbefore
      have hidle : s.process.pipeline.sys.wait = .idle := by simpa [closesQuietly] using h
      rw [QueueSys.BeforeLoad, hidle] at hbefore
      exact hbefore.elim
  all_goals trivial

/-- One result, which is in the buffer of the batcher when the signal comes. -/
def drainOneResult : List (DaemonAction Decimal) :=
  startup ++ probeOnce ++ ([.recv, .signal, .signalExit, .wake, .stop 0, .join, .join, .dropHub,
    .recv, .pipeline .enqueue, .pipeline .notifyOne, .pipeline .close, .pipeline .notifyWaiters,
    .pipeline .call, .pipeline .wait, .pipeline .ret, .pipeline (.answer (.ok ()) 0),
    .pipeline .pop, .pipeline .call, .pipeline .wait, .pipeline .wait, .pipeline .ret,
    .drained].map DaemonAction.process)

theorem published_accounted_oneResult :
    ∃ s, Run (step sampleDaemonArgs) LeavesNothing (new sampleDaemonArgs) drainOneResult s ∧
      s.process.hub.sent = [sampleResult] ∧ s.batcher.missed = 0 ∧
      (s.process.pipeline.pushed.flatMap Pushed.results = s.process.hub.sent ↔
        s.batcher.missed = 0) := by
  obtain ⟨s, hs⟩ : ∃ s, runActions (step sampleDaemonArgs) (fun s a => s.closesQuietly a = true)
      (new sampleDaemonArgs) drainOneResult = some s := ⟨_, rfl⟩
  have hend : s.process.main = .finished .drainedCleanly ∧ s.process.hub.sent = [sampleResult] ∧
      s.batcher.missed = 0 := by
    obtain rfl := Option.some.inj hs
    exact ⟨rfl, rfl, rfl⟩
  have hrun : Run (step sampleDaemonArgs) LeavesNothing (new sampleDaemonArgs) drainOneResult s :=
    (run_of_runActions _ hs).mono fun _ _ => leavesNothing_of_closesQuietly
  exact ⟨s, hrun, hend.2.1, hend.2.2, (published_accounted (by decide) hrun hend.1).2.2.2⟩

/-! ### The web state -/

omit [F64 F] in
/-- Once everything is read, what is still kept is what the map has. -/
theorem Inv.get_of_kept (hi : s.Inv) {w : WebTask F} (hw : s.web = some w)
    (hend : w.feed.next = s.process.hub.sent.length) {name : String}
    (hkept : lastResult (s.process.hub.sent.drop s.process.hub.oldest) name ≠ none) :
    w.state.results.get name = lastResult s.process.hub.sent name := by
  obtain ⟨hf, hstart⟩ := hi.feeds w.feed (mem_subscribers.mpr (.inr (.inr ⟨w, hw, rfl⟩)))
  rw [(hi.web w hw).results]
  apply hf.lastTo_received hend
  rw [hstart, Nat.zero_max]
  exact hkept

/-- **The web state is the last result of each probe, as far as it was told.** In every run, what
the map has was published, under its own name; as long as the event loop has missed nothing it is
the last of what it has read; and once it has read everything, with whatever gaps, it is right about
every probe whose last result the hub still keeps. -/
theorem web_current {F : Type} [F64 F] {args : DaemonArgs} {as : List (DaemonAction F)}
    {s : Daemon F} {w : WebTask F} (h : FreeRun (step args) (new args) as s) (hw : s.web = some w) :
    (∀ name r, w.state.results.get name = some r →
      r ∈ s.process.hub.sent ∧ r.probeName = name) ∧
    (w.feed.missed = 0 →
      w.state.results.get = lastResult (s.process.hub.sent.take w.feed.next)) ∧
    (w.feed.next = s.process.hub.sent.length → ∀ name,
      lastResult (s.process.hub.sent.drop s.process.hub.oldest) name ≠ none →
        w.state.results.get name = lastResult s.process.hub.sent name) := by
  have hi := inv_run h
  obtain ⟨hf, hstart⟩ := hi.feeds w.feed (mem_subscribers.mpr (.inr (.inr ⟨w, hw, rfl⟩)))
  have hacc := accounted_of_inv hf hstart
  have hresults := (hi.web w hw).results
  refine ⟨?_, ?_, fun hend name hkept => hi.get_of_kept hw hend hkept⟩
  · intro name r hr
    rw [hresults] at hr
    obtain ⟨hmem, hname⟩ := key_of_lastTo hr
    exact ⟨hf.mem_sent hmem, hname⟩
  · intro hmissed
    rw [hresults, hacc.complete.mpr hmissed]

theorem web_current_slowConsole :
    ∃ s w, FreeRun (step sampleDaemonArgs) (new sampleDaemonArgs) slowConsole s ∧
      s.web = some w ∧ w.feed.missed = 0 ∧
      w.state.results.get = lastResult (s.process.hub.sent.take w.feed.next) := by
  obtain ⟨s, hs⟩ : ∃ s, runActions (step sampleDaemonArgs) (fun _ _ => True) (new sampleDaemonArgs)
      slowConsole = some s := ⟨_, rfl⟩
  obtain ⟨w, hw, hmissed⟩ : ∃ w, s.web = some w ∧ w.feed.missed = 0 := by
    obtain rfl := Option.some.inj hs
    exact ⟨_, rfl, rfl⟩
  have hrun := run_of_runActions _ hs
  exact ⟨s, w, hrun, hw, hmissed, (web_current hrun hw).2.1 hmissed⟩

/-- Only the event loop takes a step. -/
def OnlyWeb (_ : Daemon F) (a : DaemonAction F) : Prop := a = .insert ∨ a = .send

/-- How many steps the event loop has to take. -/
def webWork (s : Daemon F) : ℕ :=
  match s.web with
  | some w => 2 * w.feed.backlog s.process.hub + if w.sending.isSome then 1 else 0
  | none => 0

theorem capacity_step {args : ProcessArgs} {s t : Process F} {a : ProcessAction F}
    (h : s.step args a = some t) : t.hub.capacity = s.hub.capacity := by
  cases Process.step_to h <;> rfl

/-- While `run` has not returned, the event loop takes its steps. -/
theorem step_insert (hrunning : ∀ outcome, s.process.main ≠ .finished outcome) :
    s.step args .insert = s.web.bind s.insertStep := by
  cases hm : s.process.main with
  | finished outcome => exact absurd hm (hrunning outcome)
  | spawnBatcher | spawnWriter | subscribe | scheduling | waiting | stopping | dropHub | draining =>
    simp only [step, hm]

theorem step_send (hrunning : ∀ outcome, s.process.main ≠ .finished outcome) {w : WebTask F}
    {r : ProbeResult F} (hw : s.web = some w) (hs : w.sending = some r) :
    s.step args .send = some { s with web := some ⟨w.feed, w.state.send r, none⟩ } := by
  obtain ⟨feed, state, sending⟩ := w
  obtain rfl : sending = some r := hs
  cases hm : s.process.main with
  | finished outcome => exact absurd hm (hrunning outcome)
  | spawnBatcher | spawnWriter | subscribe | scheduling | waiting | stopping | dropHub | draining =>
    simp only [step, hm, hw]

omit [F64 F] in
theorem insertStep_note {w : WebTask F} {e : Recv (ProbeResult F)} {next : ℕ}
    (hs : w.sending = none) (he : w.feed.event s.process.hub = some (e, next))
    (hnone : e.message = none) :
    s.insertStep w = some { s with web := some { w with feed := w.feed.push e next } } := by
  unfold insertStep
  cases e with
  | ok r => cases hnone
  | lagged | closed => simp only [hs, he]

/-- As long as it has something to do, the event loop can do it. -/
theorem exists_webStep (hi : s.Inv) (hrunning : ∀ outcome, s.process.main ≠ .finished outcome)
    {w : WebTask F} (hw : s.web = some w) (hwork : s.webWork ≠ 0) :
    ∃ a t w', s.OnlyWeb a ∧ s.step args a = some t ∧ t.process = s.process ∧ t.web = some w' ∧
      t.webWork < s.webWork := by
  obtain ⟨hf, -⟩ := hi.feeds w.feed (mem_subscribers.mpr (.inr (.inr ⟨w, hw, rfl⟩)))
  have hworkEq : s.webWork =
      2 * w.feed.backlog s.process.hub + if w.sending.isSome then 1 else 0 := by
    rw [webWork, hw]
  cases hs : w.sending with
  | some r =>
    refine ⟨.send, _, _, .inr rfl, step_send hrunning hw hs, rfl, rfl, ?_⟩
    rw [hworkEq, hs]
    show 2 * w.feed.backlog s.process.hub + 0 < 2 * w.feed.backlog s.process.hub + 1
    omega
  | none =>
    have hbacklog : w.feed.backlog s.process.hub ≠ 0 := by
      rw [hworkEq, hs] at hwork
      simpa using hwork
    obtain ⟨e, next, he, hless⟩ := hf.event_of_backlog hbacklog
    have hinsert : s.step args .insert = s.insertStep w := by rw [step_insert hrunning, hw]; rfl
    cases e with
    | ok r =>
      have hto : s.insertStep w = some { s with
          web := some ⟨w.feed.push (.ok r) next, w.state.insert r, some r⟩ } := by
        simp only [insertStep, hs, he]
      refine ⟨.insert, _, _, .inl rfl, hinsert.trans hto, rfl, rfl, ?_⟩
      rw [hworkEq, hs]
      show 2 * (w.feed.push (.ok r) next).backlog s.process.hub + 1 <
        2 * w.feed.backlog s.process.hub + 0
      omega
    | lagged | closed =>
      have hto := insertStep_note hs he rfl
      refine ⟨.insert, _, _, .inl rfl, hinsert.trans hto, rfl, rfl, ?_⟩
      rw [hworkEq]
      show 2 * (w.feed.push _ next).backlog s.process.hub + (if w.sending.isSome then 1 else 0) <
        2 * w.feed.backlog s.process.hub + if w.sending.isSome then 1 else 0
      omega

/-- **The web state can always catch up.** From every state that can be reached while `run` has not
returned, the event loop alone, in a number of steps that the capacity of the hub bounds, reaches a
state in which the map has the last result of every probe whose last result is still kept. The
capacity is what the hub keeps, which is what the config asks for, rounded up to a power of two. -/
theorem web_catches_up {F : Type} [F64 F] {args : DaemonArgs} {as : List (DaemonAction F)}
    {s : Daemon F} {w : WebTask F} (h : FreeRun (step args) (new args) as s)
    (hrunning : ∀ outcome, s.process.main ≠ .finished outcome) (hw : s.web = some w) :
    ∃ bs t w', bs.length ≤ 2 * (args.process.hubCapacity + 1) + 1 ∧
      Run (step args) OnlyWeb s bs t ∧ t.process = s.process ∧ t.web = some w' ∧
      w'.sending = none ∧ ∀ name,
        lastResult (s.process.hub.sent.drop s.process.hub.oldest) name ≠ none →
          w'.state.results.get name = lastResult s.process.hub.sent name := by
  obtain ⟨bs, t, hlen, hrun, ⟨hi, hprocess, w', hw'⟩, hdone⟩ : ∃ bs t, bs.length ≤ s.webWork ∧
      Run (step args) OnlyWeb s bs t ∧
      (t.Inv ∧ t.process = s.process ∧ ∃ w', t.web = some w') ∧ t.webWork = 0 := by
    refine Run.exists_of_measure (fun t ht hwork => ?_) ⟨inv_run h, rfl, w, hw⟩
    obtain ⟨hi, hprocess, w', hw'⟩ := ht
    obtain ⟨a, u, w'', hok, hst, hp, hw'', hlt⟩ :=
      exists_webStep hi (by rw [hprocess]; exact hrunning) hw' hwork
    exact ⟨a, u, hok, hst, ⟨inv_step hi hst, hp.trans hprocess, w'', hw''⟩, hlt⟩
  have hcapacity : s.process.hub.capacity = args.process.hubCapacity := by
    refine h.invariant (I := fun s => s.process.hub.capacity = args.process.hubCapacity) rfl ?_
    intro s a t hs _ hst
    cases step_to hst with
    | process b p hp => exact (capacity_step hp).trans hs
    | print | startWeb | insert | note | send => exact hs
  have hbound : s.webWork ≤ 2 * (args.process.hubCapacity + 1) + 1 := by
    have hle := w.feed.backlog_le s.process.hub
    rw [hcapacity] at hle
    unfold webWork
    rw [hw]
    dsimp only
    split_ifs with hsome
    · omega
    · omega
  have hdone' : 2 * w'.feed.backlog t.process.hub + (if w'.sending.isSome then 1 else 0) = 0 := by
    unfold webWork at hdone
    rw [hw'] at hdone
    exact hdone
  obtain ⟨hf, -⟩ := hi.feeds w'.feed (mem_subscribers.mpr (.inr (.inr ⟨w', hw', rfl⟩)))
  have hend : w'.feed.next = t.process.hub.sent.length := hf.backlog_eq_zero_iff.mp (by omega)
  refine ⟨bs, t, w', hlen.trans hbound, hrun, hprocess, hw', ?_, ?_⟩
  · rw [← Option.not_isSome_iff_eq_none]
    intro hsome
    rw [if_pos hsome] at hdone'
    omega
  · intro name hkept
    rw [← hprocess] at hkept ⊢
    exact hi.get_of_kept hw' hend hkept

/-- The event loop has read nothing of three results. -/
def slowWeb : List (DaemonAction Decimal) := startup ++ probeOnce ++ probeOnce ++ probeOnce

theorem web_catches_up_slowWeb :
    ∃ s bs t w', FreeRun (step sampleDaemonArgs) (new sampleDaemonArgs) slowWeb s ∧
      bs.length ≤ 7 ∧ Run (step sampleDaemonArgs) OnlyWeb s bs t ∧ t.web = some w' ∧
      w'.state.results.get sampleResult.probeName = some sampleResult := by
  obtain ⟨s, hs⟩ : ∃ s, runActions (step sampleDaemonArgs) (fun _ _ => True) (new sampleDaemonArgs)
      slowWeb = some s := ⟨_, rfl⟩
  obtain ⟨w, hw, hmain, hsent, hold⟩ : ∃ w, s.web = some w ∧ s.process.main = .waiting 0 ∧
      s.process.hub.sent = [sampleResult, sampleResult, sampleResult] ∧
        s.process.hub.oldest = 1 := by
    obtain rfl := Option.some.inj hs
    exact ⟨_, rfl, rfl, rfl, rfl⟩
  have hrun := run_of_runActions _ hs
  obtain ⟨bs, t, w', hlen, hweb, -, hw', -, hget⟩ :=
    web_catches_up hrun (by rw [hmain]; simp) hw
  refine ⟨s, bs, t, w', hrun, hlen, hweb, hw', ?_⟩
  rw [hget, hsent]
  · simp [lastResult, lastTo]
  · rw [hsent, hold]
    simp [lastResult, lastTo]

end Daemon

end Huginn.Main
