import Huginn.Main.Correct.Drain
import Huginn.Main.Daemon

/-!
# What the subscribers of the hub are told

As long as anything can be published the hub has a sender (`Process.HubInv`), so what the process
does to the hub never invalidates what a subscriber was told (`Process.feed_step`). It follows that
each of the three accounts for everything that was published, which is the subject of the next
module.
-/

namespace Huginn

namespace Influx.Pipeline

variable {F : Type} [F64 F] {args : PipelineArgs} {p q : Pipeline F} {b : PipelineAction F}

/-- The batcher has been told that the hub is closed. -/
def Ending (p : Pipeline F) : Prop :=
  p.batcher = .enqueue true ∨ p.batcher = .close ∨ p.batcher = .exited

/-- The batcher receives. -/
theorem recv_step {e : Recv (ProbeResult F)} (h : p.step args (.recv e) = some q) :
    ¬ p.Ending ∧ q.received = p.received ++ e.message.toList ∧ (q.Ending ↔ e.isClosed = true) := by
  cases step_to h with
  | recvOk r hb =>
    refine ⟨by simp [Ending, hb], rfl, ?_⟩
    unfold Ending
    dsimp only
    split_ifs with hfull
    · simp [Recv.isClosed]
    · simp [Recv.isClosed]
  | recvLagged n hb =>
    refine ⟨by simp [Ending, hb], (List.append_nil _).symm, ?_⟩
    simp [Ending, hb, Recv.isClosed]
  | recvClosed hb =>
    exact ⟨by simp [Ending, hb], (List.append_nil _).symm, by simp [Ending, Recv.isClosed]⟩

/-- Nothing else that the two tasks do changes what the batcher was told. -/
theorem told_step (h : p.step args b = some q) (hb : ∀ e, b ≠ .recv e) :
    q.received = p.received ∧ (q.Ending ↔ p.Ending) := by
  cases step_to h with
  | recvOk | recvLagged | recvClosed => exact absurd rfl (hb _)
  | timer hs => exact ⟨rfl, by simp [Ending, hs]⟩
  | enqueueEmpty last hs | enqueue last hs =>
    refine ⟨rfl, ?_⟩
    cases last with
    | true => simp [Ending, hs, afterEnqueue]
    | false => simp [Ending, hs, afterEnqueue]
  | close hs => exact ⟨rfl, by simp [Ending, hs]⟩
  | notifyOne | notifyWaiters | call | wait | retSome | retNone | accepted | rejected | retry | pop
  | sleep | shutdown => exact ⟨rfl, Iff.rfl⟩

end Influx.Pipeline

namespace Main

open Influx Web

/-- `run` has not dropped its `Arc<EventHub>`. -/
def MainPc.holdsHub : MainPc → Bool
  | .draining _ | .finished _ => false
  | .spawnBatcher | .spawnWriter | .subscribe | .scheduling _ | .waiting _ | .stopping _
  | .dropHub _ => true

/-- The subscribers are subscribed, and no probe loop is spawned yet. -/
def MainPc.isEarly : MainPc → Bool
  | .spawnBatcher | .spawnWriter | .subscribe => true
  | .scheduling _ | .waiting _ | .stopping _ | .dropHub _ | .draining _ | .finished _ => false

/-- The loop holds its `Arc<EventHub>`. -/
def ProbeLoop.isLive (l : ProbeLoop) : Bool := l.pc != .stopped

variable {F : Type} [F64 F]

namespace Process

variable {args : ProcessArgs} {s t : Process F} {a : ProcessAction F}
  {as : List (ProcessAction F)} {f : Feed (ProbeResult F)}

/-! ### The senders of the hub -/

/-- The senders of the hub: `run`, until it has dropped its own, and the loops that have not
stopped. -/
def HubInv (s : Process F) : Prop :=
  (∀ outcome, s.main ≠ .finished outcome) →
    s.hub.senders = (if s.main.holdsHub then 1 else 0) + s.loops.countP ProbeLoop.isLive

omit [F64 F] in
theorem countP_set {i : ℕ} {l : ProbeLoop} (hl : s.loops[i]? = some l) (l' : ProbeLoop) :
    (s.loops.set i l').countP ProbeLoop.isLive + (if l.isLive then 1 else 0) =
      s.loops.countP ProbeLoop.isLive + if l'.isLive then 1 else 0 := by
  obtain ⟨hlt, heq⟩ := List.getElem?_eq_some_iff.mp hl
  have hle : (if l.isLive then 1 else 0) ≤ s.loops.countP ProbeLoop.isLive := by
    split_ifs with hlive
    · exact List.countP_pos_iff.mpr ⟨l, List.mem_of_getElem? hl, hlive⟩
    · exact Nat.zero_le _
  rw [List.countP_set hlt, heq]
  omega

omit [F64 F] in
theorem hubInv_new : (new args : Process F).HubInv := fun _ => rfl

omit [F64 F] in
/-- A loop that is there keeps the hub open. -/
theorem HubInv.senders_ne_zero (hi : s.HubInv) (hrunning : ∀ outcome, s.main ≠ .finished outcome)
    {i : ℕ} {l : ProbeLoop} (hl : s.loops[i]? = some l) (hlive : l.isLive = true) :
    s.hub.senders ≠ 0 := by
  have hsenders := hi hrunning
  have hpos : 0 < s.loops.countP ProbeLoop.isLive :=
    List.countP_pos_iff.mpr ⟨l, List.mem_of_getElem? hl, hlive⟩
  omega

omit [F64 F] in
/-- A loop that stops drops its sender. -/
theorem HubInv.stop (hi : s.HubInv) (hrunning : ∀ outcome, s.main ≠ .finished outcome)
    {i : ℕ} {l : ProbeLoop} (hl : s.loops[i]? = some l) (hpc : l.pc ≠ .stopped) :
    HubInv { s with
      loops := s.loops.set i { l with pc := .stopped }
      hub := s.hub.dropSender } := by
  intro _
  have hlive : l.isLive = true := by simpa [ProbeLoop.isLive] using hpc
  have hset := countP_set hl { l with pc := .stopped }
  have hsenders := hi hrunning
  rw [hlive, if_pos rfl] at hset
  simp only [ProbeLoop.isLive, bne_self_eq_false, Bool.false_eq_true, if_false] at hset
  show s.hub.senders - 1 = (if s.main.holdsHub then 1 else 0) +
    (s.loops.set i { l with pc := .stopped }).countP ProbeLoop.isLive
  omega

omit [F64 F] in
/-- A loop that goes on keeps its sender. -/
theorem HubInv.go (hi : s.HubInv) (hrunning : ∀ outcome, s.main ≠ .finished outcome)
    {i : ℕ} {l l' : ProbeLoop} (hl : s.loops[i]? = some l) (hlive : l.isLive = true)
    (hlive' : l'.isLive = true) {hub : Broadcast (ProbeResult F)}
    (hhub : hub.senders = s.hub.senders) :
    HubInv { s with loops := s.loops.set i l', hub := hub } := by
  intro _
  have hset := countP_set hl l'
  have hsenders := hi hrunning
  rw [hlive, hlive', if_pos rfl] at hset
  show hub.senders = (if s.main.holdsHub then 1 else 0) +
    (s.loops.set i l').countP ProbeLoop.isLive
  omega

theorem hubInv_step (hi : s.HubInv) (h : s.step args a = some t) : t.HubInv := by
  have hrunning := fun outcome => not_finished_of_step h outcome
  have hsenders := hi hrunning
  cases step_to h with
  | spawnLoop rx hm hlt =>
    intro _
    show s.hub.senders + 1 = (if s.main.holdsHub then 1 else 0) +
      (s.loops ++ [ProbeLoop.mk .waiting s.shutdown.subscribe false]).countP ProbeLoop.isLive
    rw [List.countP_append, hsenders]
    rfl
  | tick i l hl hpc =>
    exact hi.go hrunning hl (by rw [ProbeLoop.isLive, hpc]; rfl) rfl rfl
  | publish i l r hl hpc =>
    exact hi.go hrunning hl (by rw [ProbeLoop.isLive, hpc]; rfl) rfl rfl
  | stop i l hl hpc hsees => exact hi.stop hrunning hl hpc
  | cancel i l hl hpc habort => exact hi.stop hrunning hl hpc
  | dropHub stopped hm =>
    intro _
    rw [hm, MainPc.holdsHub, if_pos rfl] at hsenders
    show s.hub.senders - 1 = 0 + s.loops.countP ProbeLoop.isLive
    omega
  | graceOver n hm hlt =>
    intro _
    show s.hub.senders = _ + (s.loops.map _).countP ProbeLoop.isLive
    rw [List.countP_map, hsenders, hm]
    rfl
  | startFails | drained | drainOver => exact fun hm => absurd rfl (hm _)
  | spawnBatcher hm | spawnWriter hm | subscribe hm | scheduled _ hm | wake _ hm | join _ _ hm
  | joined _ hm =>
    intro _
    rw [hm] at hsenders
    exact hsenders
  | signal | signalExit | recv | abandon | pipeline => exact fun _ => hsenders

/-! ### What a step does to the hub -/

/-- **The process invalidates nothing that a subscriber was told**: what is published comes after
it, and once every sender is gone, nothing is. -/
theorem feed_step (hi : s.HubInv) (hf : f.Inv s.hub) (h : s.step args a = some t) :
    f.Inv t.hub := by
  have hrunning := fun outcome => not_finished_of_step h outcome
  have hdrop : f.Inv s.hub.dropSender := hf.senders fun hzero => by rw [hzero]
  cases step_to h with
  | publish i l r hl hpc =>
    exact hf.send (hi.senders_ne_zero hrunning hl (by rw [ProbeLoop.isLive, hpc]; rfl))
  | spawnLoop rx hm hlt =>
    refine hf.senders fun hzero => ?_
    have hsenders := hi hrunning
    rw [hm, hzero, MainPc.holdsHub, if_pos rfl] at hsenders
    omega
  | stop | cancel | dropHub => exact hdrop
  | signal | signalExit | spawnBatcher | spawnWriter | subscribe | scheduled | startFails | wake
  | join | joined | graceOver | drained | drainOver | tick | recv | abandon | pipeline => exact hf

/-- What the batcher receives is what the hub has for it. -/
theorem ne_recv_of_pipeline {b : PipelineAction F} (h : s.step args (.pipeline b) = some t)
    (e : Recv (ProbeResult F)) : b ≠ .recv e := by
  rintro rfl
  unfold step at h
  split at h
  · cases h
  · cases h

/-! ### Startup -/

/-- Nothing is published before everyone is subscribed. -/
def EarlyInv (s : Process F) : Prop :=
  s.main.isEarly = true → s.loops = [] ∧ s.hub.sent = []

omit [F64 F] in
theorem earlyInv_new : (new args : Process F).EarlyInv := fun _ => ⟨rfl, rfl⟩

theorem earlyInv_step (hi : s.EarlyInv) (h : s.step args a = some t) : t.EarlyInv := by
  cases step_to h with
  | spawnBatcher hm | spawnWriter hm => exact fun _ => hi (by rw [hm]; rfl)
  | spawnLoop rx hm =>
    intro hearly
    rw [show MainPc.isEarly _ = s.main.isEarly from rfl, hm] at hearly
    cases hearly
  | tick i l hl | publish i l r hl | stop i l hl | cancel i l hl =>
    intro hearly
    rw [(hi hearly).1] at hl
    cases hl
  | subscribe | scheduled | startFails | wake | join | joined | graceOver | dropHub | drained
  | drainOver => exact fun hearly => absurd hearly Bool.false_ne_true
  | signal | signalExit | recv | abandon | pipeline => exact hi

end Process

namespace Daemon

variable {args : DaemonArgs} {s t : Daemon F} {a : DaemonAction F} {as : List (DaemonAction F)}
  {f : Feed (ProbeResult F)}

/-! ### The steps of the daemon -/

/-- What a step can do. -/
inductive StepTo (args : DaemonArgs) (s : Daemon F) : DaemonAction F → Daemon F → Prop
  | process (b : ProcessAction F) (p : Process F) (hp : s.process.step args.process b = some p)
      (hdue : b = .start → s.webDue args = false) :
      StepTo args s (.process b) { s with process := p, batcher := s.tellBatcher b }
  | print (e : Recv (ProbeResult F)) (next : ℕ)
      (he : s.console.event s.process.hub = some (e, next)) :
      StepTo args s .print { s with console := s.console.push e next }
  | startWeb (hw : s.web = none) (hm : s.process.main = .subscribe) :
      StepTo args s .startWeb { s with web := some ⟨.subscribe s.process.hub, .new, none⟩ }
  | insert (w : WebTask F) (r : ProbeResult F) (next : ℕ) (hw : s.web = some w)
      (hs : w.sending = none) (he : w.feed.event s.process.hub = some (.ok r, next)) :
      StepTo args s .insert
        { s with web := some ⟨w.feed.push (.ok r) next, w.state.insert r, some r⟩ }
  | note (w : WebTask F) (e : Recv (ProbeResult F)) (next : ℕ) (hw : s.web = some w)
      (hs : w.sending = none) (he : w.feed.event s.process.hub = some (e, next))
      (hnone : e.message = none) :
      StepTo args s .insert { s with web := some { w with feed := w.feed.push e next } }
  | send (w : WebTask F) (r : ProbeResult F) (hw : s.web = some w) (hs : w.sending = some r) :
      StepTo args s .send { s with web := some ⟨w.feed, w.state.send r, none⟩ }

theorem processStep_to {b : ProcessAction F} (hdue : b = .start → s.webDue args = false)
    (h : s.processStep args b = some t) : StepTo args s (.process b) t := by
  obtain ⟨p, hp, rfl⟩ := Option.map_eq_some_iff.mp h
  exact .process b p hp hdue

theorem insertStep_to {w : WebTask F} (hw : s.web = some w) (h : s.insertStep w = some t) :
    StepTo args s .insert t := by
  unfold insertStep at h
  split at h
  · next r next hs he => exact Option.some.inj h ▸ .insert w r next hw hs he
  · next e next hok hs he =>
    refine Option.some.inj h ▸ .note w e next hw hs he ?_
    cases e with
    | ok r => exact absurd rfl (hok r)
    | lagged | closed => rfl
  all_goals cases h

/-- **The step lemma.** -/
theorem step_to (h : s.step args a = some t) : StepTo args s a t := by
  unfold step at h
  split at h
  · cases h
  · split_ifs at h with hdue
    exact processStep_to (fun _ => by simpa using hdue) h
  · next b hstart _ => exact processStep_to (fun heq => absurd heq hstart) h
  · obtain ⟨feed, hfeed, rfl⟩ := Option.map_eq_some_iff.mp h
    obtain ⟨⟨e, next⟩, he, rfl⟩ := Option.map_eq_some_iff.mp hfeed
    exact .print e next he
  · split_ifs at h with hdue
    unfold webDue at hdue
    simp only [Bool.and_eq_true, Option.isNone_iff_eq_none, beq_iff_eq] at hdue
    exact Option.some.inj h ▸ .startWeb hdue.1.2 hdue.2
  · obtain ⟨w, hw, hinsert⟩ := Option.bind_eq_some_iff.mp h
    exact insertStep_to hw hinsert
  · split at h
    · next feed state r hw => exact Option.some.inj h ▸ .send ⟨feed, state, some r⟩ r hw rfl
    · cases h

/-- A run of the daemon is a run of the process, with what else happens in between. -/
theorem process_run {ok : Daemon F → DaemonAction F → Prop}
    {okP : Process F → ProcessAction F → Prop}
    (hok : ∀ (s : Daemon F) b, ok s (.process b) → okP s.process b)
    (h : Run (step args) ok (new args) as s) :
    ∃ bs, Run (Process.step args.process) okP (.new args.process) bs s.process := by
  refine h.simulate (I := fun _ => True) process trivial (fun _ _ _ _ _ _ => trivial) ?_
  intro s a t _ ha hst
  cases step_to hst with
  | process b p hp hdue => exact .inr ⟨b, hok s b ha, hp⟩
  | print | startWeb | insert | note | send => exact .inl rfl

/-! ### The batcher -/

/-- What the batcher was told is what its receiver and its history say. -/
structure BatcherInv (s : Daemon F) : Prop where
  before : s.process.batcherRx = none → s.batcher = ⟨0, 0, []⟩
  next : ∀ rx, s.process.batcherRx = some rx → s.batcher.next = rx
  received : s.process.pipeline.received = s.batcher.received
  /-- The end is what makes the batcher leave its loop. -/
  ended : s.batcher.ended = true ↔ s.process.pipeline.Ending

omit [F64 F] in
theorem batcherInv_new : BatcherInv (new args : Daemon F) where
  before := fun _ => rfl
  next := fun _ h => nomatch h
  received := rfl
  ended := by simp [new, Feed.subscribe, Feed.ended, Pipeline.Ending, Process.new, Pipeline.new]

/-- A `recv` of the batcher is one of its feed. -/
theorem batcher_recv {rx rx' : ℕ} {e : Recv (ProbeResult F)} {p : Pipeline F}
    (hi : s.BatcherInv) (hrx : s.process.batcherRx = some rx)
    (hrecv : s.process.hub.recv rx = some (e, rx'))
    (hp : s.process.pipeline.step args.process.pipeline (.recv e) = some p) :
    s.batcher.event s.process.hub = some (e, rx') ∧
      s.tellBatcher .recv = s.batcher.push e rx' := by
  obtain ⟨hnot, -, -⟩ := Pipeline.recv_step hp
  have hopen : s.batcher.ended ≠ true := fun hended => hnot (hi.ended.mp hended)
  constructor
  · rw [Feed.event, if_neg hopen, hi.next rx hrx, hrecv]
  · simp only [tellBatcher, hrx, hrecv]

theorem batcherInv_process {b : ProcessAction F} {p : Process F} (hi : s.BatcherInv)
    (hearly : s.process.EarlyInv) (hf : s.batcher.Inv s.process.hub)
    (h : s.process.step args.process b = some p) :
    BatcherInv { s with process := p, batcher := s.tellBatcher b } := by
  cases Process.step_to h with
  | recv rx rx' e q hrx hrecv hq =>
    obtain ⟨-, hreceived, hending⟩ := Pipeline.recv_step hq
    obtain ⟨hevent, htell⟩ := batcher_recv hi hrx hrecv hq
    refine ⟨fun hnone => (by cases hnone), ?_, ?_, ?_⟩
    · intro rx'' hrx''
      rw [← Option.some.inj hrx'', htell]
      rfl
    · show q.received = (s.tellBatcher .recv).received
      rw [htell, Feed.received_push, hreceived, hi.received]
    · show (s.tellBatcher .recv).ended = true ↔ q.Ending
      rw [htell, Feed.ended_push, (Feed.event_to hevent).1, Bool.false_or, hending]
  | spawnBatcher hm =>
    refine ⟨fun hnone => (by cases hnone), ?_, hi.received, hi.ended⟩
    intro rx hrx
    have hsent : s.process.hub.sent = [] := (hearly (by rw [hm]; rfl)).2
    have hnext : s.batcher.next = 0 := by
      have hle := hf.next_le
      rw [hsent, List.length_nil] at hle
      omega
    show s.batcher.next = rx
    rw [← Option.some.inj hrx, Broadcast.subscribe, hsent, hnext]
    rfl
  | pipeline c q hc hq =>
    obtain ⟨hreceived, hending⟩ := Pipeline.told_step hq (Process.ne_recv_of_pipeline h)
    exact ⟨hi.before, hi.next, hreceived.trans hi.received, hi.ended.trans hending.symm⟩
  | abandon rx q hrx hsees hq =>
    obtain ⟨hreceived, hending⟩ := Pipeline.told_step hq (by simp)
    exact ⟨hi.before, hi.next, hreceived.trans hi.received, hi.ended.trans hending.symm⟩
  | signal | signalExit | spawnWriter | subscribe | spawnLoop | scheduled | startFails | wake | join
  | joined | graceOver | dropHub | drained | drainOver | tick | publish | stop | cancel =>
    exact ⟨hi.before, hi.next, hi.received, hi.ended⟩

/-! ### The web state -/

/-- What the web state has is what the event loop has received, but for the result about to be sent.
-/
structure WebInv (w : WebTask F) : Prop where
  results : w.state.results.get = lastResult w.feed.received
  sent : w.state.sseTx.sent ++ w.sending.toList = w.feed.received

omit [F64 F] in
theorem WebInv.insert {w : WebTask F} (hi : WebInv w) (hs : w.sending = none) (r : ProbeResult F)
    (next : ℕ) : WebInv ⟨w.feed.push (.ok r) next, w.state.insert r, some r⟩ where
  results := by
    show (w.state.results.insert r.probeName r).get = lastTo _ (w.feed.push (.ok r) next).received
    rw [HashMap.get_insert, hi.results, Feed.received_push]
    exact (lastTo_concat _ _).symm
  sent := by
    have hsent := hi.sent
    rw [hs, Option.toList_none, List.append_nil] at hsent
    show w.state.sseTx.sent ++ [r] = (w.feed.push (.ok r) next).received
    rw [Feed.received_push, hsent]
    rfl

omit [F64 F] in
theorem WebInv.note {w : WebTask F} (hi : WebInv w) {e : Recv (ProbeResult F)}
    (he : e.message = none) (next : ℕ) : WebInv { w with feed := w.feed.push e next } := by
  have hreceived : (w.feed.push e next).received = w.feed.received := by
    rw [Feed.received_push, he]
    exact List.append_nil _
  exact ⟨hi.results.trans (by rw [hreceived]), hi.sent.trans hreceived.symm⟩

/-! ### Every run -/

/-- What holds in every state. -/
structure Inv (s : Daemon F) : Prop where
  hub : s.process.HubInv
  early : s.process.EarlyInv
  feeds : ∀ f ∈ s.subscribers, f.Inv s.process.hub ∧ f.start = 0
  batcher : s.BatcherInv
  web : ∀ w, s.web = some w → WebInv w

omit [F64 F] in
theorem mem_subscribers : f ∈ s.subscribers ↔
    f = s.console ∨ f = s.batcher ∨ ∃ w, s.web = some w ∧ w.feed = f := by
  unfold subscribers
  rw [List.mem_cons, List.mem_cons, Option.mem_toList, Option.map_eq_some_iff]

omit [F64 F] in
theorem inv_new : Inv (new args : Daemon F) where
  hub := Process.hubInv_new
  early := Process.earlyInv_new
  feeds := by
    intro f hf
    have hsubscribe : f = .subscribe (Process.new args.process : Process F).hub := by
      rcases mem_subscribers.mp hf with rfl | rfl | ⟨w, hw, -⟩
      · rfl
      · rfl
      · cases hw
    rw [hsubscribe]
    exact ⟨Feed.inv_subscribe _, rfl⟩
  batcher := batcherInv_new
  web := fun _ hw => by cases hw

/-- What the batcher was told stays right. -/
theorem Inv.tellBatcher (hi : s.Inv) {b : ProcessAction F} {p : Process F}
    (h : s.process.step args.process b = some p) :
    (s.tellBatcher b).Inv p.hub ∧ (s.tellBatcher b).start = 0 := by
  obtain ⟨hf, hstart⟩ := hi.feeds s.batcher (mem_subscribers.mpr (.inr (.inl rfl)))
  have hkept : s.batcher.Inv p.hub := Process.feed_step hi.hub hf h
  cases Process.step_to h with
  | recv rx rx' e q hrx hrecv hq =>
    obtain ⟨hevent, htell⟩ := batcher_recv hi.batcher hrx hrecv hq
    rw [htell]
    exact ⟨hf.push hevent, hstart⟩
  | signal | signalExit | spawnBatcher | spawnWriter | subscribe | scheduled | spawnLoop
  | startFails | wake | join | joined | graceOver | dropHub | drained | drainOver | tick | publish
  | stop | cancel | abandon | pipeline => exact ⟨hkept, hstart⟩

omit [F64 F] in
/-- A step of a task that listens. -/
theorem Inv.listen (hi : s.Inv) {console : Feed (ProbeResult F)} {web : Option (WebTask F)}
    (hconsole : console.Inv s.process.hub ∧ console.start = 0)
    (hweb : ∀ w, web = some w → (w.feed.Inv s.process.hub ∧ w.feed.start = 0) ∧ WebInv w) :
    Inv { s with console := console, web := web } := by
  have hb := hi.batcher
  refine ⟨hi.hub, hi.early, ?_, ⟨hb.before, hb.next, hb.received, hb.ended⟩,
    fun w hw => (hweb w hw).2⟩
  intro f hf
  rcases mem_subscribers.mp hf with rfl | rfl | ⟨w, hw, rfl⟩
  · exact hconsole
  · exact hi.feeds s.batcher (mem_subscribers.mpr (.inr (.inl rfl)))
  · exact (hweb w hw).1

theorem inv_step (hi : s.Inv) (h : s.step args a = some t) : t.Inv := by
  have hconsole := hi.feeds s.console (mem_subscribers.mpr (.inl rfl))
  have hbatcher := hi.feeds s.batcher (mem_subscribers.mpr (.inr (.inl rfl)))
  have hweb : ∀ w, s.web = some w →
      (w.feed.Inv s.process.hub ∧ w.feed.start = 0) ∧ WebInv w := fun w hw =>
    ⟨hi.feeds _ (mem_subscribers.mpr (.inr (.inr ⟨w, hw, rfl⟩))), hi.web w hw⟩
  cases step_to h with
  | process b p hp hdue =>
    refine ⟨Process.hubInv_step hi.hub hp, Process.earlyInv_step hi.early hp, ?_,
      batcherInv_process hi.batcher hi.early hbatcher.1 hp, hi.web⟩
    intro f hf
    rcases mem_subscribers.mp hf with rfl | rfl | ⟨w, hw, rfl⟩
    · exact ⟨Process.feed_step hi.hub hconsole.1 hp, hconsole.2⟩
    · exact hi.tellBatcher hp
    · exact ⟨Process.feed_step hi.hub (hweb w hw).1.1 hp, (hweb w hw).1.2⟩
  | print e next he => exact hi.listen ⟨hconsole.1.push he, hconsole.2⟩ hweb
  | startWeb hw hm =>
    refine hi.listen hconsole fun w' hw' => ?_
    rw [← Option.some.inj hw']
    have hsent : s.process.hub.sent = [] := (hi.early (by rw [hm]; rfl)).2
    refine ⟨⟨Feed.inv_subscribe _, ?_⟩, ⟨rfl, rfl⟩⟩
    show s.process.hub.sent.length = 0
    rw [hsent]
    rfl
  | insert w r next hw hs he =>
    obtain ⟨⟨hf, hstart⟩, hwi⟩ := hweb w hw
    refine hi.listen hconsole fun w' hw' => ?_
    rw [← Option.some.inj hw']
    exact ⟨⟨hf.push he, hstart⟩, hwi.insert hs r next⟩
  | note w e next hw hs he hnone =>
    obtain ⟨⟨hf, hstart⟩, hwi⟩ := hweb w hw
    refine hi.listen hconsole fun w' hw' => ?_
    rw [← Option.some.inj hw']
    exact ⟨⟨hf.push he, hstart⟩, hwi.note hnone next⟩
  | send w r hw hs =>
    obtain ⟨hf, hwi⟩ := hweb w hw
    have hsent := hwi.sent
    rw [hs] at hsent
    refine hi.listen hconsole fun w' hw' => ?_
    rw [← Option.some.inj hw']
    refine ⟨hf, hwi.results, ?_⟩
    show (w.state.sseTx.sent ++ [r]) ++ [] = w.feed.received
    rw [List.append_nil]
    exact hsent

theorem inv_run {ok : Daemon F → DaemonAction F → Prop} (h : Run (step args) ok (new args) as s) :
    s.Inv :=
  h.invariant inv_new fun _ _ _ hi _ hst => inv_step hi hst

end Daemon

end Main

end Huginn
