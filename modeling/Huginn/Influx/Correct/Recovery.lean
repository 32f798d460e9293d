import Huginn.Influx.Correct.Drain
import Huginn.Lib.Progress

/-!
# When InfluxDB answers again

However long InfluxDB was away, once it gives final answers the writer works off what is left: the
batch that it holds and the queue, in order (`Pipeline.answers_in_order`), in a number of steps that
what is left bounds (`Pipeline.work_step`, `Pipeline.work_le`), and it does not stop before
(`Pipeline.idle_of_stuck`).

The measure counts nine steps for each batch, and what the writer may have to go around
`wait_for_batch` once more for: a permit, a wakeup, a stale future, or a call of the batcher that is
about to notify.
-/

namespace Huginn.Influx

namespace Pipeline

variable {F : Type} [F64 F] {args : PipelineArgs} {s t : Pipeline F} {a : PipelineAction F}
  {as bs : List (PipelineAction F)} {cap : ℕ}

/-- A step of the writer in which InfluxDB gives no reason to retry, or the rest of a call that the
batcher has begun. -/
def Answering (_ : Pipeline F) : PipelineAction F → Prop
  | .call | .wait | .ret | .pop | .sleep | .notifyOne | .notifyWaiters => True
  | .answer outcome _ => isFinal outcome = true
  | .recv _ | .timer | .enqueue | .close | .shutdown => False

/-- What is queued once `b` has been answered. -/
def behind (s : Pipeline F) (b : Batch) : List Batch := (s.sys.queue.popIfFront b).1.inner.batches

/-- The batches that the writer has yet to answer, in the order in which it will. -/
def pending (s : Pipeline F) : List Batch :=
  match s.writer with
  | .waiting =>
    match s.sys.wait with
    | .done (some b) => b :: s.behind b
    | _ => s.sys.queue.inner.batches
  | .writing b _ | .backoff b _ _ => b :: s.behind b
  | .answered b => s.behind b
  | .returned => s.sys.queue.inner.batches

/-! ### The batches are answered in order -/

omit [F64 F] in
/-- Whoever takes the front of the queue leaves the rest behind. -/
theorem behind_of_peek {b : Batch} (h : s.sys.queue.peek = some b) :
    b :: s.behind b = s.sys.queue.inner.batches := by
  unfold behind RetryQueue.popIfFront
  unfold RetryQueue.peek at h
  cases hq : s.sys.queue.inner.batches with
  | nil =>
    rw [hq] at h
    cases h
  | cons front rest =>
    rw [hq] at h
    obtain rfl := Option.some.inj h
    have hfront : front.ptrEq front = true := beq_self_eq_true _
    simp only [hfront, if_true]
    rfl

omit [F64 F] in
/-- Only the contents of the queue decide what is behind a batch. -/
theorem behind_eq {b : Batch} (h : t.sys.queue.inner = s.sys.queue.inner) :
    t.behind b = s.behind b := by
  unfold behind RetryQueue.popIfFront
  rw [h]
  cases s.sys.queue.inner.batches with
  | nil => exact congrArg Inner.batches h
  | cons front rest =>
    dsimp only
    split_ifs
    · rfl
    · exact congrArg Inner.batches h

omit [F64 F] in
/-- An answer leaves the queue as it is. -/
theorem behind_answered (f : WriteStats → WriteStats) (b : Batch)
    (finals : List (Batch × Verdict)) :
    behind { s.withStats f with writer := .answered b, finals := finals } b = s.behind b :=
  behind_eq rfl

omit [F64 F] in
/-- A step of `wait_for_batch` takes nothing away. -/
theorem pending_wait {sys : QueueSys} (hw : s.writer = .waiting) (h : s.sys.WaitTo sys) :
    pending { s with sys := sys } = s.pending := by
  have hold : s.pending = s.sys.queue.inner.batches := by
    simp only [pending, hw]
    split
    · next b hd => exact absurd hd (h.not_done _)
    · rfl
  rw [hold]
  cases h with
  | found b hpc hb =>
    simp only [pending, hw]
    exact behind_of_peek hb
  | empty | none | «open» | created | emptyAgain | openAgain | ready | asleep | resumed =>
    simp only [pending, hw]

/-- The answers given, and those to be given. -/
def answers (s : Pipeline F) : List Batch := s.finals.map Prod.fst ++ s.pending

/-- **The step lemma.** An answer is about the first of the pending batches, and no other step
changes what is pending. -/
theorem answers_step (hok : s.Answering a) (h : s.step args a = some t) :
    t.answers = s.answers := by
  unfold answers
  cases step_to h with
  | wait sys hw hto =>
    show s.finals.map Prod.fst ++ pending { s with sys := sys } = _
    rw [pending_wait hw hto]
  | call hw hidle => simp only [pending, hw, hidle]
  | retSome b hw hdone => simp only [pending, hw, hdone, behind]
  | retNone hw hdone => simp only [pending, hw, hdone]
  | accepted b attempt now hw | rejected b attempt e now hw he =>
    simp only [pending, hw]
    rw [List.map_append, List.append_assoc, behind_answered]
    rfl
  | retry b attempt e now hw he =>
    have hfinal : isFinal (.error e) = true := hok
    rw [isFinal, he] at hfinal
    cases hfinal
  | pop b hw hidle =>
    simp only [pending, hw, hidle]
    rfl
  | sleep b attempt delay hw => simp only [pending, hw, behind]
  | notifyOne hp | notifyWaiters hp =>
    have hpending : ∀ sys : QueueSys, sys.wait = s.sys.wait →
        sys.queue.inner = s.sys.queue.inner → pending { s with sys := sys } = s.pending := by
      intro sys hwait hinner
      have hbehind : ∀ b, behind { s with sys := sys } b = s.behind b := fun b => behind_eq hinner
      simp only [pending, hwait, hinner, hbehind]
    exact congrArg _ (hpending _ rfl rfl)
  | recvOk | recvLagged | recvClosed | timer | enqueueEmpty | enqueue | close | shutdown =>
    exact hok.elim

theorem answers_in_order (h : Run (step args) Answering s bs t) : t.answers = s.answers :=
  h.invariant (I := fun t => t.answers = s.answers) rfl
    fun _ _ _ hi hok hst => (answers_step hok hst).trans hi

/-! ### The measure -/

/-- How far the writer is from sleep, or from its next batch. -/
def waitRank : WaitPc → ℕ
  | .idle => 8
  | .peek => 7
  | .load => 6
  | .register => 5
  | .recheck _ => 4
  | .reload _ => 3
  | .poll _ => 2
  | .done (some _) => 2
  | .done none => 1
  | .suspended => 1

def writerRank (s : Pipeline F) : ℕ :=
  match s.writer with
  | .waiting => waitRank s.sys.wait
  | .writing _ _ => 1
  | .answered _ => 9
  | .backoff _ _ _ => 2
  | .returned => 0

/-- The future at hand is already complete. -/
def isStale (s : QueueSys) : Bool :=
  match s.wait with
  | .recheck n | .reload n | .poll n => n.calls != s.queue.notify.calls
  | .idle | .peek | .load | .register | .suspended | .done _ => false

/-- The writer has been woken. -/
def isWoken (s : QueueSys) : Bool := s.queue.notify.waiter == .woken

/-- The batcher is about to notify. -/
def isOwed (s : QueueSys) : Bool := s.producer == .notifyOne || s.producer == .notifyWaiters

/-- What may send the writer around once more. -/
def signals (s : QueueSys) : ℕ :=
  8 * s.queue.notify.permit.toNat + 8 * (isWoken s).toNat + 8 * (isStale s).toNat +
    9 * (isOwed s).toNat

/-- How much there is to do. -/
def work (s : Pipeline F) : ℕ := 9 * s.pending.length + s.writerRank + signals s.sys

omit [F64 F] in
/-- Apart from the batches, there is never much to do. -/
theorem work_le (s : Pipeline F) : s.work ≤ 9 * s.pending.length + 42 := by
  have hrank : s.writerRank ≤ 9 := by
    unfold writerRank waitRank
    split
    · split <;> omega
    all_goals omega
  have hpermit := Bool.toNat_le s.sys.queue.notify.permit
  have hwoken := Bool.toNat_le (isWoken s.sys)
  have hstale := Bool.toNat_le (isStale s.sys)
  have howed := Bool.toNat_le (isOwed s.sys)
  unfold work signals
  omega

/-- Going on without a stale future costs nothing. -/
theorem signals_le {q : QueueSys} {wait : WaitPc}
    (h : isStale { q with wait := wait } = true → isStale q = true) :
    signals { q with wait := wait } ≤ signals q := by
  have hle : (isStale { q with wait := wait }).toNat ≤ (isStale q).toNat := Bool.toNat_le_toNat h
  show 8 * q.queue.notify.permit.toNat + 8 * (isWoken q).toNat +
    8 * (isStale { q with wait := wait }).toNat + 9 * (isOwed q).toNat ≤ signals q
  unfold signals
  omega

/-- A future that completes at its first poll uses up the permit, or is a stale one. -/
theorem signals_ready {q : QueueSys} {n : Notified} (hw : q.wait = .poll n)
    (hp : (q.queue.notify.poll n).2 = true) :
    signals { q with
      queue := { q.queue with notify := (q.queue.notify.poll n).1 }, wait := .peek } + 8 ≤
        signals q := by
  have hstale : isStale q = (n.calls != q.queue.notify.calls) := by rw [isStale, hw]
  unfold Notify.poll at hp ⊢
  unfold signals
  by_cases hpermit : q.queue.notify.permit = true
  · rw [if_pos hpermit, hpermit]
    show 8 * 0 + 8 * (isWoken q).toNat + 8 * 0 + 9 * (isOwed q).toNat + 8 ≤ _
    have hone : Bool.toNat true = 1 := rfl
    omega
  · rw [if_neg hpermit] at hp ⊢
    by_cases hcalls : n.calls ≠ q.queue.notify.calls
    · rw [if_pos hcalls, hstale, bne_iff_ne.mpr hcalls]
      show 8 * q.queue.notify.permit.toNat + 8 * (isWoken q).toNat + 8 * 0 +
        9 * (isOwed q).toNat + 8 ≤ _
      have hone : Bool.toNat true = 1 := rfl
      omega
    · rw [if_neg hcalls] at hp
      cases hp

/-- A step of `wait_for_batch` leads closer to its end, or uses up a signal. -/
theorem waitRank_lt {q r : QueueSys} (h : q.WaitTo r) :
    waitRank r.wait + signals r < waitRank q.wait + signals q := by
  have hrank : ∀ wait, q.wait = wait → waitRank q.wait = waitRank wait := fun _ => congrArg _
  cases h with
  | found b hw hb =>
    have hle : signals { q with wait := .done (some b) } ≤ signals q :=
      signals_le (by simp [isStale])
    show 2 + _ < _
    rcases hw with hw | ⟨n, hw⟩
    · have hq : waitRank q.wait = 7 := hrank _ hw
      omega
    · have hq : waitRank q.wait = 4 := hrank _ hw
      omega
  | none hw hc =>
    have hle : signals { q with wait := .done none } ≤ signals q := signals_le (by simp [isStale])
    have hq : 3 ≤ waitRank q.wait := by
      unfold QueueSys.BeforeLoad at hw
      split at hw
      · next hq => rw [hq]; decide
      · next hq => rw [hq]; exact le_refl 3
      · exact hw.elim
    show 1 + _ < _
    omega
  | empty hw hempty =>
    have hle : signals { q with wait := .load } ≤ signals q := signals_le (by simp [isStale])
    have hq : waitRank q.wait = 7 := hrank _ hw
    show 6 + _ < _
    omega
  | «open» hw hc =>
    have hle : signals { q with wait := .register } ≤ signals q := signals_le (by simp [isStale])
    have hq : waitRank q.wait = 6 := hrank _ hw
    show 5 + _ < _
    omega
  | created hw =>
    have hle : signals { q with wait := .recheck q.queue.notify.notified } ≤ signals q :=
      signals_le (by simp [isStale, Notify.notified])
    have hq : waitRank q.wait = 5 := hrank _ hw
    show 4 + _ < _
    omega
  | emptyAgain n hw hempty =>
    have hle : signals { q with wait := .reload n } ≤ signals q :=
      signals_le (by simp [isStale, hw])
    have hq : waitRank q.wait = 4 := hrank _ hw
    show 3 + _ < _
    omega
  | openAgain n hw hc =>
    have hle : signals { q with wait := .poll n } ≤ signals q := signals_le (by simp [isStale, hw])
    have hq : waitRank q.wait = 3 := hrank _ hw
    show 2 + _ < _
    omega
  | ready n hw hp =>
    have hle := signals_ready hw hp
    have hq : waitRank q.wait = 2 := hrank _ hw
    show 7 + _ < _
    omega
  | asleep n hw hp =>
    have hq : waitRank q.wait = 2 := hrank _ hw
    show 1 + (8 * q.queue.notify.permit.toNat + 8 * 0 + 8 * 0 + 9 * (isOwed q).toNat) < _
    unfold signals
    omega
  | resumed hw hn =>
    have hq : waitRank q.wait = 1 := hrank _ hw
    have hwoken : (isWoken q).toNat = 1 := by rw [isWoken, hn]; rfl
    show 7 + (8 * q.queue.notify.permit.toNat + 8 * 0 + 8 * 0 + 9 * (isOwed q).toNat) < _
    unfold signals
    omega

/-- A `notify_one` becomes a permit or a wakeup. -/
theorem signals_notifyOne {q : QueueSys} (hp : q.producer = .notifyOne) :
    signals { q with queue := q.queue.notifyOne, producer := .idle } < signals q := by
  have howed : (isOwed q).toNat = 1 := by rw [isOwed, hp]; rfl
  have hstale : isStale { q with queue := q.queue.notifyOne, producer := .idle } = isStale q := by
    simp only [isStale, RetryQueue.notifyOne, Notify.notifyOne_calls]
  unfold signals
  rw [hstale, howed]
  have hpermit := Bool.toNat_le q.queue.notify.permit
  cases hwaiter : q.queue.notify.waiter with
  | registered =>
    have hwoken : isWoken q = false := by rw [isWoken, hwaiter]; rfl
    have hnotify : q.queue.notifyOne.notify = { q.queue.notify with waiter := .woken } := by
      simp only [RetryQueue.notifyOne, Notify.notifyOne, hwaiter]
    rw [isWoken, hnotify, hwoken]
    show 8 * q.queue.notify.permit.toNat + 8 * 1 + _ + 9 * 0 < _
    omega
  | absent | woken =>
    have hnotify : q.queue.notifyOne.notify = { q.queue.notify with permit := true } := by
      simp only [RetryQueue.notifyOne, Notify.notifyOne, hwaiter]
    rw [isWoken, hnotify]
    show 8 * 1 + 8 * (isWoken q).toNat + _ + 9 * 0 < _
    omega

/-- A `notify_waiters` becomes a wakeup or a stale future, and not both. -/
theorem signals_notifyWaiters {q : QueueSys} (hi : q.WakeInv) (hp : q.producer = .notifyWaiters) :
    signals { q with queue := q.queue.notifyWaiters, producer := .closed } < signals q := by
  have howed : (isOwed q).toNat = 1 := by rw [isOwed, hp]; rfl
  have hstaleLe := Bool.toNat_le
    (isStale { q with queue := q.queue.notifyWaiters, producer := .closed })
  by_cases hsuspended : q.wait = .suspended
  · have hstale : isStale { q with queue := q.queue.notifyWaiters, producer := .closed } = false :=
      by simp only [isStale, hsuspended]
    have hwokenLe := Bool.toNat_le
      (isWoken { q with queue := q.queue.notifyWaiters, producer := .closed })
    unfold signals
    rw [hstale, howed]
    show 8 * q.queue.notify.permit.toNat + _ + 8 * 0 + 9 * 0 < _
    omega
  · have habsent := hi.absent hsuspended
    have hwoken :
        isWoken { q with queue := q.queue.notifyWaiters, producer := .closed } = false := by
      simp only [isWoken, RetryQueue.notifyWaiters, Notify.notifyWaiters, habsent]
      rfl
    unfold signals
    rw [hwoken, howed]
    show 8 * q.queue.notify.permit.toNat + 8 * 0 + _ + 9 * 0 < _
    omega

/-! ### The writer works off what is left -/

/-- What the measure and the end of the recovery rest on. -/
structure RecoverInv (s : Pipeline F) : Prop where
  wake : s.sys.WakeInv
  queue : s.QueueInv
  drain : s.DrainInv

theorem wakeInv_step (hi : s.sys.WakeInv) (h : s.step args a = some t) : t.sys.WakeInv := by
  have hsys : ∀ b sys, s.sys.step b = some sys → sys.WakeInv := fun b sys hst =>
    QueueSys.wakeInv_step hi hst
  cases step_to h with
  | enqueue last hb hbuf hp => exact hsys (.push s.nextBatch) _ (by rw [QueueSys.step, if_pos hp])
  | notifyOne hp => exact hsys .notifyOne _ (by rw [QueueSys.step, if_pos hp])
  | close hb hp => exact hsys .storeClosed _ (by rw [QueueSys.step, if_pos hp])
  | notifyWaiters hp => exact hsys .notifyWaiters _ (by rw [QueueSys.step, if_pos hp])
  | call hw hidle => exact hsys .call _ (by rw [QueueSys.step, if_pos hidle])
  | wait sys hw hto =>
    rw [step, if_pos hw] at h
    obtain ⟨sys', hst, heq⟩ := Option.map_eq_some_iff.mp h
    have hsame : sys' = sys := congrArg Pipeline.sys heq
    exact hsys .wait sys (hsame ▸ hst)
  | retSome b hw hd | retNone hw hd => exact hsys .ret _ (by rw [QueueSys.step, hd])
  | pop b hw hidle => exact hsys (.pop b) _ (by rw [QueueSys.step, if_pos hidle])
  | accepted | rejected => exact ⟨hi.slot, hi.past, hi.reload, hi.poll, hi.asleep⟩
  | recvOk | recvLagged | recvClosed | timer | enqueueEmpty | retry | sleep | shutdown => exact hi

omit [F64 F] in
theorem leavesNothing_of_answering (hok : s.Answering a) : s.LeavesNothing a := by
  constructor
  · rintro rfl
    exact hok
  · rintro rfl
    exact hok.elim

theorem recoverInv_step (hi : s.RecoverInv) (hok : s.LeavesNothing a)
    (h : s.step args a = some t) : t.RecoverInv :=
  ⟨wakeInv_step hi.wake h, queueInv_step hi.queue h, drainInv_step hi.drain hok h⟩

theorem recoverInv_run (h : Run (step args) LeavesNothing (new cap) as s) : s.RecoverInv :=
  h.invariant (I := RecoverInv) ⟨QueueSys.wakeInv_new, QueueInv.new cap, drainInv_new⟩
    fun _ _ _ hi hok hst => recoverInv_step hi hok hst

omit [F64 F] in
/-- What a step of the writer that is no answer has to show. -/
theorem work_lt (hfinals : t.finals = s.finals)
    (hlen : t.finals.length + t.pending.length = s.finals.length + s.pending.length)
    (h : t.writerRank + signals t.sys < s.writerRank + signals s.sys) : t.work < s.work := by
  rw [hfinals] at hlen
  unfold work
  omega

/-- **Every step is work done.** -/
theorem work_step (hi : s.sys.WakeInv) (hok : s.Answering a) (h : s.step args a = some t) :
    t.work < s.work := by
  have hlen : t.finals.length + t.pending.length = s.finals.length + s.pending.length := by
    have hanswers := congrArg List.length (answers_step hok h)
    simpa [answers] using hanswers
  have hwait : ∀ wait, s.writer = .waiting → s.sys.wait = wait → s.writerRank = waitRank wait := by
    intro wait hw hpc
    rw [writerRank, hw, ← hpc]
  cases step_to h with
  | wait sys hw hto =>
    have hlt := waitRank_lt hto
    have hrank : writerRank { s with sys := sys } = waitRank sys.wait := by rw [writerRank, hw]
    refine work_lt rfl hlen ?_
    rw [hrank, hwait _ hw rfl]
    exact hlt
  | call hw hidle =>
    have hle : signals { s.sys with wait := .peek } ≤ signals s.sys :=
      signals_le (by simp [isStale])
    have hrank : writerRank { s with sys := { s.sys with wait := .peek } } = 7 := by
      simp only [writerRank, hw, waitRank]
    refine work_lt rfl hlen ?_
    rw [hrank, hwait _ hw hidle]
    show 7 + signals { s.sys with wait := .peek } < 8 + signals s.sys
    omega
  | retSome b hw hd =>
    have hle : signals { s.sys with wait := .idle } ≤ signals s.sys :=
      signals_le (by simp [isStale])
    refine work_lt rfl hlen ?_
    rw [hwait _ hw hd]
    show 1 + signals { s.sys with wait := .idle } < 2 + signals s.sys
    omega
  | retNone hw hd =>
    have hle : signals { s.sys with wait := .idle } ≤ signals s.sys :=
      signals_le (by simp [isStale])
    refine work_lt rfl hlen ?_
    rw [hwait _ hw hd]
    show 0 + signals { s.sys with wait := .idle } < 1 + signals s.sys
    omega
  | accepted b attempt now hw | rejected b attempt e now hw he =>
    -- the one batch that is answered pays for the way to the next
    have hrank : s.writerRank = 1 := by rw [writerRank, hw]
    unfold work
    rw [hrank]
    rw [List.length_append, List.length_singleton] at hlen
    show 9 * _ + 9 + signals s.sys < _
    omega
  | retry b attempt e now hw he =>
    have hfinal : isFinal (.error e) = true := hok
    rw [isFinal, he] at hfinal
    cases hfinal
  | pop b hw hidle =>
    have hsignals :
        signals { s.sys with queue := (s.sys.queue.popIfFront b).1 } = signals s.sys := by
      simp only [signals, isWoken, isStale, isOwed, RetryQueue.popIfFront_notify]
    have hrank : s.writerRank = 9 := by rw [writerRank, hw]
    refine work_lt rfl hlen ?_
    rw [hrank]
    show waitRank s.sys.wait + signals { s.sys with queue := (s.sys.queue.popIfFront b).1 } < _
    rw [hsignals, hidle]
    show 8 + signals s.sys < _
    omega
  | sleep b attempt delay hw =>
    have hrank : s.writerRank = 2 := by rw [writerRank, hw]
    refine work_lt rfl hlen ?_
    rw [hrank]
    show 1 + signals s.sys < _
    omega
  | notifyOne hp =>
    have hlt := signals_notifyOne hp
    exact work_lt rfl hlen (Nat.add_lt_add_left hlt _)
  | notifyWaiters hp =>
    have hlt := signals_notifyWaiters hi hp
    exact work_lt rfl hlen (Nat.add_lt_add_left hlt _)
  | recvOk | recvLagged | recvClosed | timer | enqueueEmpty | enqueue | close | shutdown =>
    exact hok.elim

/-- Nothing is left for the writer to do, whatever it is answered. -/
def Stuck (args : PipelineArgs) (s : Pipeline F) : Prop :=
  ∀ a, s.Answering a → s.step args a = none

/-- Between its beginning and its end, `wait_for_batch` only stops to sleep. -/
theorem waitStep_ne_none {q : QueueSys} (hidle : q.wait ≠ .idle) (hdone : ∀ r, q.wait ≠ .done r)
    (hasleep : q.wait = .suspended → q.queue.notify.waiter = .woken) : q.waitStep ≠ none := by
  unfold QueueSys.waitStep
  split
  · next hw => exact absurd hw hidle
  · next r hw => exact absurd hw (hdone r)
  · split <;> simp
  · split_ifs <;> simp
  · simp
  · split <;> simp
  · split_ifs <;> simp
  · simp
  · next hw =>
    rw [Notify.resume, if_pos (hasleep hw)]
    simp

/-- **The writer only stops when nothing is left.** -/
theorem idle_of_stuck (hi : s.RecoverInv) (hstuck : s.Stuck args) : s.pending = [] := by
  cases hw : s.writer with
  | writing b attempt =>
    have hnone := hstuck (.answer (.ok ()) 0) rfl
    simp only [step, hw] at hnone
    cases hnone
  | answered b =>
    have hnone := hstuck .pop trivial
    have hidle := hi.queue.idle (by simp [hw])
    simp only [step, hw, QueueSys.step, hidle, if_true, Option.map_some] at hnone
    cases hnone
  | backoff b attempt delay =>
    have hnone := hstuck .sleep trivial
    simp only [step, hw] at hnone
    cases hnone
  | returned =>
    rw [pending, hw]
    exact (hi.drain.returned hw).2
  | waiting =>
    have hcall : s.sys.wait ≠ .idle := by
      intro hidle
      have hnone := hstuck .call trivial
      simp only [step, hw, if_true, QueueSys.step, hidle, Option.map_some] at hnone
      cases hnone
    have hret : ∀ r, s.sys.wait ≠ .done r := by
      intro r hd
      have hnone := hstuck .ret trivial
      cases r with
      | some b =>
        simp only [step, hw, hd, QueueSys.step, Option.map_some] at hnone
        cases hnone
      | none =>
        simp only [step, hw, hd, QueueSys.step, Option.map_some] at hnone
        cases hnone
    have hwait : s.sys.waitStep = none := by
      have hnone := hstuck .wait trivial
      rw [step, if_pos hw] at hnone
      exact Option.map_eq_none_iff.mp hnone
    -- the writer sleeps, and nobody is about to wake it
    have hasleep : s.sys.wait = .suspended ∧ s.sys.queue.notify.waiter ≠ .woken := by
      by_contra hawake
      exact waitStep_ne_none hcall hret (fun hs => by_contra fun hn => hawake ⟨hs, hn⟩) hwait
    have hregistered : s.sys.queue.notify.waiter = .registered := by
      have hslot := hi.wake.slot.mp hasleep.1
      cases hwaiter : s.sys.queue.notify.waiter with
      | registered => rfl
      | absent => exact absurd hwaiter hslot
      | woken => exact absurd hwaiter hasleep.2
    have hquiet : ¬ s.sys.Owed := by
      rintro (hp | hp)
      · have hnone := hstuck .notifyOne trivial
        simp only [step, QueueSys.step, hp, if_true, Option.map_some] at hnone
        cases hnone
      · have hnone := hstuck .notifyWaiters trivial
        simp only [step, QueueSys.step, hp, if_true, Option.map_some] at hnone
        cases hnone
    have hempty : s.sys.queue.inner.batches = [] := by
      by_contra hne
      exact hquiet (hi.wake.asleep hregistered (.inl hne))
    simp only [pending, hw, hasleep.1]
    exact hempty

/-- **After an outage everything that is left is answered, in order, and soon.** Take any state that
can be reached by steps that leave nothing, with InfluxDB away for as long as you like, and go on
with any steps of the writer in which it gives final answers. There are at most nine of them for
each batch that is left, and 42 more; the answers are about the batches that are left, in order;
and when no further step is possible, all of them have been answered. -/
theorem recovers {F : Type} [F64 F] {args : PipelineArgs} {cap : ℕ}
    {as bs : List (PipelineAction F)} {s t : Pipeline F}
    (h : Run (step args) LeavesNothing (new cap) as s) (hrun : Run (step args) Answering s bs t) :
    bs.length ≤ 9 * s.pending.length + 42 ∧
      t.finals.map Prod.fst ++ t.pending = s.finals.map Prod.fst ++ s.pending ∧
      (t.Stuck args → t.finals.map Prod.fst = s.finals.map Prod.fst ++ s.pending) := by
  have hi := recoverInv_run h
  have hstep : ∀ (t : Pipeline F) a u, t.RecoverInv → t.Answering a → t.step args a = some u →
      u.RecoverInv :=
    fun _ _ _ hi hok hst => recoverInv_step hi (leavesNothing_of_answering hok) hst
  have hlen := hrun.length_add_measure_le (m := work) hi hstep
    fun t a u hi hok hst => work_step hi.wake hok hst
  have hanswers : t.finals.map Prod.fst ++ t.pending = s.finals.map Prod.fst ++ s.pending :=
    answers_in_order hrun
  have hle := s.work_le
  refine ⟨by omega, hanswers, fun hstuck => ?_⟩
  have hnone := idle_of_stuck (hrun.invariant hi hstep) hstuck
  rw [hnone, List.append_nil] at hanswers
  exact hanswers

/-- The batcher does not close the queue, and the writer is not told to stop. -/
def keepsRunning : PipelineAction F → Bool
  | .close | .shutdown => false
  | _ => true

omit [F64 F] in
theorem leavesNothing_of_keepsRunning (h : keepsRunning a = true) : s.LeavesNothing a := by
  constructor
  · rintro rfl
    cases h
  · rintro rfl
    cases h

instance (s : Pipeline F) : (a : PipelineAction F) → Decidable (s.Answering a)
  | .call | .wait | .ret | .pop | .sleep | .notifyOne | .notifyWaiters => .isTrue trivial
  | .answer outcome _ => inferInstanceAs (Decidable (isFinal outcome = true))
  | .recv _ | .timer | .enqueue | .close | .shutdown => .isFalse id

/-- Two batches are queued, and the first write fails. -/
def outage : List (PipelineAction Decimal) :=
  [.recv (.ok sampleResult), .enqueue, .notifyOne, .recv (.ok sampleResult), .enqueue, .notifyOne,
    .call, .wait, .ret, .answer (.error (.transport "connection refused")) 0]

/-- The next ones do not, and the writer goes to sleep. -/
def recovery : List (PipelineAction Decimal) :=
  [.sleep, .answer (.ok ()) 1, .pop, .call, .wait, .ret, .answer (.ok ()) 2, .pop, .call] ++
    List.replicate 12 .wait

/-- A writer that sleeps with nobody about to wake it does nothing. -/
theorem stuck_of_asleep (hw : s.writer = .waiting) (hasleep : s.sys.wait = .suspended)
    (hnotify : s.sys.queue.notify.waiter = .registered) (hproducer : s.sys.producer = .idle) :
    s.Stuck args := by
  intro a ha
  cases a with
  | recv | timer | enqueue | close | shutdown => cases ha
  | wait => simp [step, hw, QueueSys.step, QueueSys.waitStep, hasleep, Notify.resume, hnotify]
  | call | ret | answer | pop | sleep | notifyOne | notifyWaiters =>
    simp [step, hw, QueueSys.step, hasleep, hproducer]

theorem recovers_outage :
    ∃ s t, Run (step sampleArgs) LeavesNothing (new 1024) outage s ∧
      Run (step sampleArgs) Answering s recovery t ∧ s.pending.map Batch.ptr = [0, 1] ∧
      recovery.length ≤ 9 * s.pending.length + 42 ∧ t.Stuck sampleArgs ∧
      t.finals.map Prod.fst = s.finals.map Prod.fst ++ s.pending := by
  have hends : ((runActions (step sampleArgs) (fun _ a => keepsRunning a = true) (new 1024)
      outage).bind fun s => (runActions (step sampleArgs) Answering s recovery).map fun t =>
        (s.pending.map Batch.ptr, t.writer, t.sys.wait, t.sys.queue.notify.waiter,
          t.sys.producer)) = some ([0, 1], .waiting, .suspended, .registered, .idle) := by
    decide +kernel
  obtain ⟨s, hs, hends⟩ := Option.bind_eq_some_iff.mp hends
  obtain ⟨t, ht, hends⟩ := Option.map_eq_some_iff.mp hends
  simp only [Prod.mk.injEq] at hends
  obtain ⟨hpending, hwriter, hasleep, hnotify, hproducer⟩ := hends
  have hrun : Run (step sampleArgs) LeavesNothing (new 1024) outage s :=
    (run_of_runActions _ hs).mono fun _ _ => leavesNothing_of_keepsRunning
  have hrecovery := run_of_runActions _ ht
  have hstuck : t.Stuck sampleArgs := stuck_of_asleep hwriter hasleep hnotify hproducer
  obtain ⟨hlen, -, hall⟩ := recovers hrun hrecovery
  exact ⟨s, t, hrun, hrecovery, hpending, hlen, hstuck, hall hstuck⟩

end Pipeline

end Huginn.Influx
