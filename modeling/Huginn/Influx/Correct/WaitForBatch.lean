import Huginn.Influx.Correct.Queue
import Huginn.Influx.WaitForBatch

/-!
# What `wait_for_batch` promises the writer

Two promises, over all interleavings of the batcher and the writer. The writer is never left asleep
with work to do (`QueueSys.no_lost_wakeup`). And `None` means closed and drained, as long as `close`
does not follow a push into the gap between an empty peek and the load of the flag
(`QueueSys.none_only_when_drained`); when it does, the batch is still queued when the writer is
told that there is nothing left (`QueueSys.none_with_a_batch_queued`).
-/

namespace Huginn.Influx

namespace RetryQueue

variable {q : RetryQueue} {b : Batch}

@[simp]
theorem pushLocked_closed : (q.pushLocked b).closed = q.closed := rfl

@[simp]
theorem pushLocked_notify : (q.pushLocked b).notify = q.notify := rfl

theorem pushLocked_ne_nil : (q.pushLocked b).inner.batches ≠ [] := by
  simp [pushLocked]

@[simp]
theorem popIfFront_closed : (q.popIfFront b).1.closed = q.closed := by
  unfold popIfFront
  split
  · split_ifs <;> rfl
  · rfl

@[simp]
theorem popIfFront_notify : (q.popIfFront b).1.notify = q.notify := by
  unfold popIfFront
  split
  · split_ifs <;> rfl
  · rfl

theorem peek_eq_none_iff : q.peek = none ↔ q.inner.batches = [] := by
  simp [peek]

end RetryQueue

namespace QueueSys

variable {s t : QueueSys} {a : QueueAction} {as : List QueueAction} {cap : ℕ} {stats : WriteStats}

/-- What a step of `wait_for_batch` can do, by where it was taken. -/
inductive WaitTo (s : QueueSys) : QueueSys → Prop
  | found (b : Batch) (hw : s.wait = .peek ∨ ∃ n, s.wait = .recheck n)
      (hb : s.queue.peek = some b) : WaitTo s { s with wait := .done (some b) }
  | empty (hw : s.wait = .peek) (hq : s.queue.inner.batches = []) :
      WaitTo s { s with wait := .load }
  | none (hw : s.BeforeLoad) (hc : s.queue.closed = true) : WaitTo s { s with wait := .done none }
  | open (hw : s.wait = .load) (hc : s.queue.closed = false) : WaitTo s { s with wait := .register }
  | created (hw : s.wait = .register) :
      WaitTo s { s with wait := .recheck s.queue.notify.notified }
  | emptyAgain (n : Notified) (hw : s.wait = .recheck n) (hq : s.queue.inner.batches = []) :
      WaitTo s { s with wait := .reload n }
  | openAgain (n : Notified) (hw : s.wait = .reload n) (hc : s.queue.closed = false) :
      WaitTo s { s with wait := .poll n }
  | ready (n : Notified) (hw : s.wait = .poll n) (hp : (s.queue.notify.poll n).2 = true) :
      WaitTo s { s with
        queue := { s.queue with notify := (s.queue.notify.poll n).1 }, wait := .peek }
  | asleep (n : Notified) (hw : s.wait = .poll n) (hp : (s.queue.notify.poll n).2 = false) :
      WaitTo s { s with
        queue := { s.queue with notify := { s.queue.notify with waiter := .registered } }
        wait := .suspended }
  | resumed (hw : s.wait = .suspended) (hn : s.queue.notify.waiter = .woken) :
      WaitTo s { s with
        queue := { s.queue with notify := { s.queue.notify with waiter := .absent } }
        wait := .peek }

theorem waitStep_to (h : s.waitStep = some t) : s.WaitTo t := by
  cases hw : s.wait with
  | idle => simp [waitStep, hw] at h
  | done r => simp [waitStep, hw] at h
  | peek =>
    cases hp : s.queue.peek with
    | some b =>
      simp only [waitStep, hw, hp, Option.some.injEq] at h
      exact h ▸ .found b (.inl hw) hp
    | none =>
      simp only [waitStep, hw, hp, Option.some.injEq] at h
      exact h ▸ .empty hw (RetryQueue.peek_eq_none_iff.mp hp)
  | load =>
    cases hc : s.queue.closed with
    | true =>
      simp only [waitStep, hw, hc, if_true, Option.some.injEq] at h
      exact h ▸ .none (by simp [BeforeLoad, hw]) hc
    | false =>
      simp only [waitStep, hw, hc, Bool.false_eq_true, if_false, Option.some.injEq] at h
      exact h ▸ .open hw hc
  | register =>
    simp only [waitStep, hw, Option.some.injEq] at h
    exact h ▸ .created hw
  | recheck n =>
    cases hp : s.queue.peek with
    | some b =>
      simp only [waitStep, hw, hp, Option.some.injEq] at h
      exact h ▸ .found b (.inr ⟨n, hw⟩) hp
    | none =>
      simp only [waitStep, hw, hp, Option.some.injEq] at h
      exact h ▸ .emptyAgain n hw (RetryQueue.peek_eq_none_iff.mp hp)
  | reload n =>
    cases hc : s.queue.closed with
    | true =>
      simp only [waitStep, hw, hc, if_true, Option.some.injEq] at h
      exact h ▸ .none (by simp [BeforeLoad, hw]) hc
    | false =>
      simp only [waitStep, hw, hc, Bool.false_eq_true, if_false, Option.some.injEq] at h
      exact h ▸ .openAgain n hw hc
  | poll n =>
    cases hp : (s.queue.notify.poll n).2 with
    | true =>
      simp only [waitStep, hw, hp, if_true, Option.some.injEq] at h
      exact h ▸ .ready n hw hp
    | false =>
      simp only [waitStep, hw, hp, Bool.false_eq_true, if_false, (Notify.poll_suspends hp).2.2,
        Option.some.injEq] at h
      exact h ▸ .asleep n hw hp
  | suspended =>
    by_cases hn : s.queue.notify.waiter = .woken
    · simp only [waitStep, hw, Notify.resume, hn, if_true, Option.map_some, Option.some.injEq] at h
      exact h ▸ .resumed hw hn
    · simp [waitStep, hw, Notify.resume, hn] at h

/-- `wait_for_batch` touches neither the contents nor the counters. -/
theorem WaitTo.inner_eq (h : s.WaitTo t) : t.queue.inner = s.queue.inner := by
  cases h <;> rfl

theorem WaitTo.producer_eq (h : s.WaitTo t) : t.producer = s.producer := by
  cases h <;> rfl

theorem WaitTo.closed_eq (h : s.WaitTo t) : t.queue.closed = s.queue.closed := by
  cases h <;> rfl

/-- On a closed queue the load of the flag ends the wait. -/
theorem WaitTo.done_of_closed (h : s.WaitTo t) (hc : s.queue.closed = true) (hb : s.BeforeLoad) :
    t.wait = .done Option.none := by
  cases h with
  | none => rfl
  | found b hw => rcases hw with hw | ⟨n, hw⟩ <;> simp [BeforeLoad, hw] at hb
  | «open» hw hopen | openAgain n hw hopen => simp [hc] at hopen
  | empty hw | created hw | emptyAgain n hw | ready n hw | asleep n hw | resumed hw =>
    simp [BeforeLoad, hw] at hb

/-- A wait that is over takes no step. -/
theorem WaitTo.not_done (h : s.WaitTo t) (r : Option Batch) : s.wait ≠ .done r := by
  intro hd
  cases h with
  | found b hw => rcases hw with hw | ⟨n, hw⟩ <;> simp [hd] at hw
  | none hb => simp [BeforeLoad, hd] at hb
  | empty hw | «open» hw | created hw | emptyAgain n hw | openAgain n hw | ready n hw | asleep n hw
  | resumed hw => simp [hd] at hw

theorem WaitTo.stats_eq (h : s.WaitTo t) : t.queue.stats = s.queue.stats := by
  cases h <;> rfl

/-- What a step of either task can do. -/
inductive StepTo (s : QueueSys) : QueueAction → QueueSys → Prop
  | push (b : Batch) (hp : s.producer = .idle) :
      StepTo s (.push b) { s with queue := s.queue.pushLocked b, producer := .notifyOne }
  | notifyOne (hp : s.producer = .notifyOne) :
      StepTo s .notifyOne { s with queue := s.queue.notifyOne, producer := .idle }
  | storeClosed (hp : s.producer = .idle) :
      StepTo s .storeClosed { s with queue := s.queue.storeClosed, producer := .notifyWaiters }
  | notifyWaiters (hp : s.producer = .notifyWaiters) :
      StepTo s .notifyWaiters { s with queue := s.queue.notifyWaiters, producer := .closed }
  | call (hw : s.wait = .idle) : StepTo s .call { s with wait := .peek }
  | wait {t : QueueSys} (hw : s.WaitTo t) : StepTo s .wait t
  | ret (r : Option Batch) (hw : s.wait = .done r) : StepTo s .ret { s with wait := .idle }
  | pop (b : Batch) (hw : s.wait = .idle) :
      StepTo s (.pop b) { s with queue := (s.queue.popIfFront b).1 }

theorem step_to (h : s.step a = some t) : s.StepTo a t := by
  cases a with
  | wait => exact .wait (waitStep_to h)
  | ret =>
    simp only [step] at h
    split at h
    · next r hw => exact Option.some.inj h ▸ .ret r hw
    · cases h
  | push b =>
    simp only [step, Option.ite_none_right_eq_some, Option.some.injEq] at h
    exact h.2 ▸ .push b h.1
  | notifyOne =>
    simp only [step, Option.ite_none_right_eq_some, Option.some.injEq] at h
    exact h.2 ▸ .notifyOne h.1
  | storeClosed =>
    simp only [step, Option.ite_none_right_eq_some, Option.some.injEq] at h
    exact h.2 ▸ .storeClosed h.1
  | notifyWaiters =>
    simp only [step, Option.ite_none_right_eq_some, Option.some.injEq] at h
    exact h.2 ▸ .notifyWaiters h.1
  | call =>
    simp only [step, Option.ite_none_right_eq_some, Option.some.injEq] at h
    exact h.2 ▸ .call h.1
  | pop b =>
    simp only [step, Option.ite_none_right_eq_some, Option.some.injEq] at h
    exact h.2 ▸ .pop b h.1

/-! ### `None` means closed and drained -/

/-- The flag is stored by `close`, which is the last thing the batcher calls. -/
def ClosedInv (s : QueueSys) : Prop :=
  s.queue.closed = true ↔ s.producer = .notifyWaiters ∨ s.producer = .closed

theorem closedInv_wait (hi : s.ClosedInv) (hw : s.WaitTo t) : t.ClosedInv := by
  cases hw <;> exact hi

theorem closedInv_step (hi : s.ClosedInv) (h : s.step a = some t) : t.ClosedInv := by
  unfold ClosedInv at hi ⊢
  cases step_to h with
  | push b hp => simpa [hp] using hi
  | notifyOne hp => simpa [hp, RetryQueue.notifyOne] using hi
  | storeClosed hp => simp [RetryQueue.storeClosed]
  | notifyWaiters hp => simpa [hp, RetryQueue.notifyWaiters] using hi
  | call | ret => exact hi
  | wait hw => exact closedInv_wait hi hw
  | pop b hw => simpa using hi

/-- While the writer stands between an empty peek and its load of the flag, and once it has decided
to return `None`, a closed queue is empty. -/
structure DrainInv (s : QueueSys) : Prop where
  closed : s.ClosedInv
  before_load : s.queue.closed = true → s.BeforeLoad → s.queue.inner.batches = []
  done : s.wait = .done none → s.queue.closed = true ∧ s.queue.inner.batches = []

theorem drainInv_new : (new cap stats).DrainInv where
  closed := by simp [ClosedInv, new, RetryQueue.new]
  before_load := by simp [new, RetryQueue.new]
  done := by simp [new]

/-- The writer only goes on from an empty peek, and only decides to return on a closed queue. -/
theorem drainInv_wait (hi : s.DrainInv) (hw : s.WaitTo t) : t.DrainInv := by
  have hclosed := closedInv_wait hi.closed hw
  cases hw with
  | empty hw hq => exact ⟨hclosed, fun _ _ => hq, by simp⟩
  | emptyAgain n hw hq => exact ⟨hclosed, fun _ _ => hq, by simp⟩
  | none hw hc => exact ⟨hclosed, by simp [BeforeLoad], fun _ => ⟨hc, hi.before_load hc hw⟩⟩
  | found | «open» | created | openAgain | ready | asleep | resumed =>
    exact ⟨hclosed, by simp [BeforeLoad], by simp⟩

/-- **The step lemma.** A push cannot come after the flag, a pop cannot come while the writer is in
the call, and a `close` that comes between the peek and the load finds the queue empty. -/
theorem drainInv_step (hi : s.DrainInv) (hok : s.CloseSeesEmpty a) (h : s.step a = some t) :
    t.DrainInv := by
  have hclosed := closedInv_step hi.closed h
  cases step_to h with
  | push b hp =>
    have hopen : ¬ s.queue.closed = true := by simp [hi.closed.not, hp]
    exact ⟨hclosed, fun hc => absurd hc hopen, fun hd => absurd (hi.done hd).1 hopen⟩
  | notifyOne hp => exact ⟨hclosed, hi.before_load, hi.done⟩
  | storeClosed hp =>
    exact ⟨hclosed, fun _ hb => hok rfl hb, fun hd => ⟨rfl, (hi.done hd).2⟩⟩
  | notifyWaiters hp => exact ⟨hclosed, hi.before_load, hi.done⟩
  | call hw => exact ⟨hclosed, by simp [BeforeLoad], by simp⟩
  | ret r hw => exact ⟨hclosed, by simp [BeforeLoad], by simp⟩
  | pop b hw => exact ⟨hclosed, by simp [BeforeLoad, hw], by simp [hw]⟩
  | wait hw => exact drainInv_wait hi hw

theorem drainInv_run (h : Run step CloseSeesEmpty (new cap stats) as s) : s.DrainInv :=
  h.invariant drainInv_new fun _ _ _ hi hok hst => drainInv_step hi hok hst

/-- A `close` that follows a push into the gap is the last thing that happens before the writer is
told that there is nothing left: its next step is to return `None`, past the batch. -/
theorem none_past_batch (h : s.step .storeClosed = some t)
    (hnot : ¬ s.CloseSeesEmpty .storeClosed) :
    ∃ u, t.step .wait = some u ∧ u.wait = .done none ∧ u.queue.inner.batches ≠ [] := by
  obtain ⟨hb, hne⟩ : s.BeforeLoad ∧ s.queue.inner.batches ≠ [] := by
    simpa [CloseSeesEmpty] using hnot
  cases step_to h with
  | storeClosed hp =>
    unfold BeforeLoad at hb
    split at hb
    · next hw =>
      exact ⟨⟨s.queue.storeClosed, .notifyWaiters, .done none⟩,
        by simp [step, waitStep, hw, RetryQueue.storeClosed], rfl, hne⟩
    · next hw =>
      exact ⟨⟨s.queue.storeClosed, .notifyWaiters, .done none⟩,
        by simp [step, waitStep, hw, RetryQueue.storeClosed], rfl, hne⟩
    · exact hb.elim

/-- **`None` means closed and drained, unless `close` slips into the gap.** In every run in which
the flag is never stored between an empty peek and the load of the flag with a batch queued,
`wait_for_batch` returns `None` only when the queue is closed and empty. And whenever the flag is
stored in that way, the very next step of the writer returns `None` while a batch is queued. -/
theorem none_only_when_drained (cap : ℕ) (stats : WriteStats) :
    (∀ as s, Run step CloseSeesEmpty (new cap stats) as s → s.wait = .done none →
      s.queue.closed = true ∧ s.queue.inner.batches = []) ∧
    (∀ as s t, FreeRun step (new cap stats) as s → s.step .storeClosed = some t →
      ¬ s.CloseSeesEmpty .storeClosed →
      ∃ u, t.step .wait = some u ∧ u.wait = .done none ∧ u.queue.inner.batches ≠ []) :=
  ⟨fun _ _ hrun => (drainInv_run hrun).done, fun _ _ _ _ hst hnot => none_past_batch hst hnot⟩

/-- A writer that is told that there is nothing left, after an ordinary `close`. -/
theorem none_only_when_drained_closed :
    ∃ as s, Run step CloseSeesEmpty (new 1024 .default) as s ∧ s.wait = .done none ∧
      s.queue.closed = true ∧ s.queue.inner.batches = [] := by
  obtain ⟨s, hs⟩ : ∃ s, runActions step CloseSeesEmpty (new 1024 .default)
      [.storeClosed, .notifyWaiters, .call, .wait, .wait] = some s := ⟨_, rfl⟩
  have hw : s.wait = .done none := by
    obtain rfl := Option.some.inj hs
    rfl
  have hrun := run_of_runActions _ hs
  exact ⟨_, s, hrun, hw, (none_only_when_drained 1024 .default).1 _ s hrun hw⟩

/-- A batch of line protocol for the runs below. -/
def sampleBatch : Batch := ⟨0, "probe_result up=1i 1"⟩

/-- The last batch is pushed, and the queue closed, between the writer's empty peek and its load of
the flag. -/
def closeInGap : List QueueAction :=
  [.call, .wait, .push sampleBatch, .notifyOne, .storeClosed, .notifyWaiters, .wait]

theorem none_with_a_batch_queued :
    ¬ ∀ as s, FreeRun step (new 1024 .default) as s → s.wait = .done none →
      s.queue.closed = true ∧ s.queue.inner.batches = [] := by
  intro h
  obtain ⟨s, hs⟩ : ∃ s,
      runActions step (fun _ _ => True) (new 1024 .default) closeInGap = some s := ⟨_, rfl⟩
  have hend : s.wait = .done none ∧ s.queue.inner.batches = [sampleBatch] := by
    obtain rfl := Option.some.inj hs
    exact ⟨rfl, rfl⟩
  simpa [hend.2] using (h _ s (run_of_runActions _ hs) hend.1).2

/-! ### No lost wakeup -/

/-- The batcher is inside a call whose next step is to notify. -/
def Owed (s : QueueSys) : Prop := s.producer = .notifyOne ∨ s.producer = .notifyWaiters

/-- There is something for the writer to return for. -/
def HasWork (s : QueueSys) : Prop := s.queue.inner.batches ≠ [] ∨ s.queue.closed = true

/-- The first poll of the future will not suspend the writer, or the batcher is about to notify. -/
def Signalled (s : QueueSys) (n : Notified) : Prop :=
  s.queue.notify.permit = true ∨ n.calls ≠ s.queue.notify.calls ∨ s.Owed

/-- The invariant that ties the permit, the future, the contents and the flag together. The writer
is in the waiter slot exactly while it is suspended. What was pushed since the second peek has been
signalled to its future, and so has whatever happened since the second load. While it is asleep with
work to do, the batcher is about to notify. -/
structure WakeInv (s : QueueSys) : Prop where
  slot : s.wait = .suspended ↔ s.queue.notify.waiter ≠ .absent
  past : ∀ n, s.wait = .recheck n ∨ s.wait = .reload n ∨ s.wait = .poll n →
    n.calls ≤ s.queue.notify.calls
  reload : ∀ n, s.wait = .reload n → s.queue.inner.batches ≠ [] → s.Signalled n
  poll : ∀ n, s.wait = .poll n → s.HasWork → s.Signalled n
  asleep : s.queue.notify.waiter = .registered → s.HasWork → s.Owed

/-- The writer has no future at hand. -/
def NoFuture (s : QueueSys) : Prop :=
  ∀ n, ¬ (s.wait = .recheck n ∨ s.wait = .reload n ∨ s.wait = .poll n)

/-- While the writer is awake and has no future at hand, there is nothing to signal. -/
theorem wakeInv_of_noFuture (habsent : s.queue.notify.waiter = .absent) (hw : s.wait ≠ .suspended)
    (hn : s.NoFuture) : s.WakeInv where
  slot := iff_of_false hw (not_not.mpr habsent)
  past n hpc := absurd hpc (hn n)
  reload n hpc := absurd (.inr (.inl hpc)) (hn n)
  poll n hpc := absurd (.inr (.inr hpc)) (hn n)
  asleep hreg := by
    rw [habsent] at hreg
    cases hreg

theorem WakeInv.absent (hi : s.WakeInv) (hw : s.wait ≠ .suspended) :
    s.queue.notify.waiter = .absent :=
  not_not.mp (hi.slot.not.mp hw)

theorem wakeInv_new : (new cap stats).WakeInv :=
  wakeInv_of_noFuture rfl (by simp [new]) (by simp [NoFuture, new])

/-- After `notify_one` the writer is awake, or its future is signalled. -/
theorem wakeInv_notifyOne (hi : s.WakeInv) :
    WakeInv { s with queue := s.queue.notifyOne, producer := .idle } := by
  have hstore : ∀ n, s.wait = .reload n ∨ s.wait = .poll n →
      Signalled { s with queue := s.queue.notifyOne, producer := .idle } n := by
    intro n hn
    have habsent := hi.absent (by rcases hn with hn | hn <;> simp [hn])
    exact .inl (Notify.notifyOne_stores habsent)
  refine ⟨?_, fun n hn => ?_, fun n hn _ => hstore n (.inl hn), fun n hn _ => hstore n (.inr hn),
    fun hreg _ => (Notify.notifyOne_ne_registered hreg).elim⟩
  · exact hi.slot.trans Notify.notifyOne_absent_iff.not.symm
  · simpa [RetryQueue.notifyOne] using hi.past n hn

/-- After `notify_waiters` the writer is awake, or its future is signalled. -/
theorem wakeInv_notifyWaiters (hi : s.WakeInv) :
    WakeInv { s with queue := s.queue.notifyWaiters, producer := .closed } := by
  have hold : ∀ n, s.wait = .recheck n ∨ s.wait = .reload n ∨ s.wait = .poll n →
      n.calls < s.queue.notify.calls + 1 := fun n hn => Nat.lt_succ_of_le (hi.past n hn)
  refine ⟨?_, fun n hn => (hold n hn).le, fun n hn _ => .inr (.inl (hold n (by simp_all)).ne),
    fun n hn _ => .inr (.inl (hold n (by simp_all)).ne),
    fun hreg _ => (Notify.notifyWaiters_ne_registered hreg).elim⟩
  exact hi.slot.trans Notify.notifyWaiters_absent_iff.not.symm

/-- **The step lemma.** -/
theorem wakeInv_step (hi : s.WakeInv) (h : s.step a = some t) : t.WakeInv := by
  cases step_to h with
  | push b hp =>
    have howed : Owed { s with queue := s.queue.pushLocked b, producer := .notifyOne } := .inl rfl
    exact ⟨hi.slot, hi.past, fun n _ _ => .inr (.inr howed), fun n _ _ => .inr (.inr howed),
      fun _ _ => howed⟩
  | notifyOne hp => exact wakeInv_notifyOne hi
  | storeClosed hp =>
    have howed : Owed { s with queue := s.queue.storeClosed, producer := .notifyWaiters } :=
      .inr rfl
    exact ⟨hi.slot, hi.past, fun n _ _ => .inr (.inr howed), fun n _ _ => .inr (.inr howed),
      fun _ _ => howed⟩
  | notifyWaiters hp => exact wakeInv_notifyWaiters hi
  | call hw | ret r hw =>
    exact wakeInv_of_noFuture (hi.absent (by simp [hw])) (by simp) (by simp [NoFuture])
  | pop b hw =>
    have habsent := hi.absent (by simp [hw])
    exact wakeInv_of_noFuture (by simpa using habsent) (by simp [hw]) (by simp [NoFuture, hw])
  | wait hw =>
    cases hw with
    | found b hw =>
      have habsent := hi.absent (by rcases hw with hw | ⟨n, hw⟩ <;> simp [hw])
      exact wakeInv_of_noFuture habsent (by simp) (by simp [NoFuture])
    | none hw =>
      have habsent := hi.absent (by rintro hs; simp [BeforeLoad, hs] at hw)
      exact wakeInv_of_noFuture habsent (by simp) (by simp [NoFuture])
    | empty hw | «open» hw =>
      exact wakeInv_of_noFuture (hi.absent (by simp [hw])) (by simp) (by simp [NoFuture])
    | ready n hw hp =>
      have habsent := (Notify.poll_completes hp).trans (hi.absent (by simp [hw]))
      exact wakeInv_of_noFuture habsent (by simp) (by simp [NoFuture])
    | resumed hw hn => exact wakeInv_of_noFuture rfl (by simp) (by simp [NoFuture])
    | created hw =>
      have habsent := hi.absent (by simp [hw])
      exact ⟨by simp [habsent], by simp [Notify.notified], by simp, by simp, by simp [habsent]⟩
    | emptyAgain n hw hq =>
      have habsent := hi.absent (by simp [hw])
      have hpast := hi.past n (.inl hw)
      exact ⟨by simp [habsent], by simpa using hpast, by simp [hq], by simp, by simp [habsent]⟩
    | openAgain n hw hc =>
      have habsent := hi.absent (by simp [hw])
      have hpast := hi.past n (.inr (.inl hw))
      refine ⟨by simp [habsent], by simpa using hpast, by simp, fun m hm hwork => ?_,
        by simp [habsent]⟩
      -- the flag was off at the load, so the work is a batch pushed since the second peek
      obtain rfl : n = m := by simpa using hm
      exact hi.reload n hw (hwork.resolve_right (by simp [hc]))
    | asleep n hw hp =>
      obtain ⟨hpermit, hcalls, -⟩ := Notify.poll_suspends hp
      refine ⟨by simp, by simp, by simp, by simp, fun _ hwork => ?_⟩
      -- the poll found neither a permit nor a call, so the signal is still to come
      rcases hi.poll n hw hwork with h | h | h
      · simp [hpermit] at h
      · exact absurd hcalls h
      · exact h

theorem wakeInv_run (h : FreeRun step (new cap stats) as s) : s.WakeInv :=
  h.invariant wakeInv_new fun _ _ _ hi _ hst => wakeInv_step hi hst

/-- **No lost wakeup.** In every interleaving, when the writer is suspended at `notified.await`
while the queue is non-empty or closed, it has been woken already, or the batcher is inside a `push`
or a `close` whose next step wakes it. -/
theorem no_lost_wakeup {cap : ℕ} {stats : WriteStats} {s : QueueSys}
    (h : Reachable step (new cap stats) s) (hw : s.wait = .suspended)
    (hwork : s.queue.inner.batches ≠ [] ∨ s.queue.closed = true) :
    s.queue.notify.waiter = .woken ∨
    (s.producer = .notifyOne ∧
      ∃ t, s.step .notifyOne = some t ∧ t.queue.notify.waiter = .woken) ∨
    (s.producer = .notifyWaiters ∧
      ∃ t, s.step .notifyWaiters = some t ∧ t.queue.notify.waiter = .woken) := by
  obtain ⟨as, hrun⟩ := h
  have hi := wakeInv_run hrun
  have hslot := hi.slot.mp hw
  cases hreg : s.queue.notify.waiter with
  | absent => exact absurd hreg hslot
  | woken => exact .inl rfl
  | registered =>
    right
    rcases hi.asleep hreg hwork with hp | hp
    · exact .inl ⟨hp, _, by rw [step, if_pos hp], Notify.notifyOne_wakes hreg⟩
    · refine .inr ⟨hp, _, by rw [step, if_pos hp], ?_⟩
      simp [RetryQueue.notifyWaiters, Notify.notifyWaiters, hreg]

/-- A writer that went to sleep on an empty queue, with a push under way. -/
theorem no_lost_wakeup_push :
    ∃ s, Reachable step (new 1024 .default) s ∧ s.wait = .suspended ∧
      s.queue.inner.batches ≠ [] ∧ s.queue.notify.waiter ≠ .woken ∧
      ∃ t, s.step .notifyOne = some t ∧ t.queue.notify.waiter = .woken := by
  obtain ⟨s, hs⟩ : ∃ s, runActions step (fun _ _ => True) (new 1024 .default)
      [.call, .wait, .wait, .wait, .wait, .wait, .wait, .push sampleBatch] = some s := ⟨_, rfl⟩
  have hreach : Reachable step (new 1024 .default) s := ⟨_, run_of_runActions _ hs⟩
  have hend : s.wait = .suspended ∧ s.queue.inner.batches = [sampleBatch] ∧
      s.queue.notify.waiter = .registered ∧ s.producer = .notifyOne := by
    obtain rfl := Option.some.inj hs
    exact ⟨rfl, rfl, rfl, rfl⟩
  obtain ⟨hw, hq, hreg, hp⟩ := hend
  have hne : s.queue.inner.batches ≠ [] := by simp [hq]
  refine ⟨s, hreach, hw, hne, by simp [hreg], ?_⟩
  rcases no_lost_wakeup hreach hw (.inl hne) with h | ⟨-, h⟩ | ⟨h, -⟩
  · simp [hreg] at h
  · exact h
  · simp [hp] at h

end QueueSys

end Huginn.Influx
