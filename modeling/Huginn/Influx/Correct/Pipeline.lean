import Huginn.Influx.Correct.WaitForBatch
import Huginn.Influx.Pipeline

/-!
# Nothing leaves the pipeline silently

The pipeline refines the ledger: seen through `Pipeline.ledger`, every step of the two tasks is a
step of `Ledger` or no step at all (`Pipeline.ledger_step`), so what holds of the abstract queue
holds of the code. `Pipeline.QueueInv` is what the refinement needs: the queue holds the newest of
the batches pushed, and batches are numbered as they are pushed.

From it follow the conservation of results and batches (`Pipeline.conservation`) and the exact
condition under which the counters account for every batch once (`Pipeline.accounts_iff`).
-/

namespace Huginn.Influx

namespace Pipeline

variable {F : Type} [F64 F] {args : PipelineArgs} {s t : Pipeline F} {a : PipelineAction F}
  {as : List (PipelineAction F)} {cap : ℕ} {ok : Pipeline F → PipelineAction F → Prop}

/-! ### What a step does -/

/-- What a step of either task can do, by where it was taken. -/
inductive StepTo (args : PipelineArgs) (s : Pipeline F) : PipelineAction F → Pipeline F → Prop
  | recvOk (r : ProbeResult F) (hb : s.batcher = .select) (hp : s.sys.producer = .idle) :
      StepTo args s (.recv (.ok r)) { s with
        buffer := s.buffer ++ [r]
        received := s.received ++ [r]
        batcher := if (s.buffer ++ [r]).length ≥ args.batchSize then .enqueue false else .select }
  | recvLagged (n : ℕ) (hb : s.batcher = .select) : StepTo args s (.recv (.lagged n)) s
  | recvClosed (hb : s.batcher = .select) (hp : s.sys.producer = .idle) :
      StepTo args s (.recv .closed) { s with batcher := .enqueue true }
  | timer (hb : s.batcher = .select) (hp : s.sys.producer = .idle) :
      StepTo args s .timer { s with batcher := .enqueue false }
  | enqueueEmpty (last : Bool) (hb : s.batcher = .enqueue last) (hbuf : s.buffer = []) :
      StepTo args s .enqueue { s with batcher := afterEnqueue last }
  | enqueue (last : Bool) (hb : s.batcher = .enqueue last) (hbuf : s.buffer ≠ [])
      (hp : s.sys.producer = .idle) :
      StepTo args s .enqueue { s with
        sys := { s.sys with queue := s.sys.queue.pushLocked s.nextBatch, producer := .notifyOne }
        buffer := []
        batcher := afterEnqueue last
        pushed := s.pushed ++ [⟨s.buffer, s.nextBatch⟩]
        evicted := s.evicted ++ s.sys.queue.evictedBy s.nextBatch }
  | notifyOne (hp : s.sys.producer = .notifyOne) :
      StepTo args s .notifyOne
        { s with sys := { s.sys with queue := s.sys.queue.notifyOne, producer := .idle } }
  | close (hb : s.batcher = .close) (hp : s.sys.producer = .idle) :
      StepTo args s .close { s with
        sys := { s.sys with queue := s.sys.queue.storeClosed, producer := .notifyWaiters }
        batcher := .exited }
  | notifyWaiters (hp : s.sys.producer = .notifyWaiters) :
      StepTo args s .notifyWaiters
        { s with sys := { s.sys with queue := s.sys.queue.notifyWaiters, producer := .closed } }
  | call (hw : s.writer = .waiting) (hidle : s.sys.wait = .idle) :
      StepTo args s .call { s with sys := { s.sys with wait := .peek } }
  | wait (sys : QueueSys) (hw : s.writer = .waiting) (hsys : s.sys.WaitTo sys) :
      StepTo args s .wait { s with sys := sys }
  | retSome (b : Batch) (hw : s.writer = .waiting) (hd : s.sys.wait = .done (some b)) :
      StepTo args s .ret { s with sys := { s.sys with wait := .idle }, writer := .writing b 0 }
  | retNone (hw : s.writer = .waiting) (hd : s.sys.wait = .done none) :
      StepTo args s .ret { s with sys := { s.sys with wait := .idle }, writer := .returned }
  | accepted (b : Batch) (attempt : UInt32) (now : ℕ) (hw : s.writer = .writing b attempt) :
      StepTo args s (.answer (.ok ()) now) { s.withStats (·.recordWritten b.len now) with
        writer := .answered b, finals := s.finals ++ [(b, .accepted)] }
  | rejected (b : Batch) (attempt : UInt32) (e : WriteError) (now : ℕ)
      (hw : s.writer = .writing b attempt) (he : e.isRetryable = false) :
      StepTo args s (.answer (.error e) now) { s.withStats (·.recordRejected) with
        writer := .answered b, finals := s.finals ++ [(b, .rejected)] }
  | retry (b : Batch) (attempt : UInt32) (e : WriteError) (now : ℕ)
      (hw : s.writer = .writing b attempt) (he : e.isRetryable = true) :
      StepTo args s (.answer (.error e) now) { s with
        writer := .backoff b (saturatingSucc attempt)
          (retryDelay args.initialBackoff args.maxBackoff e attempt) }
  | pop (b : Batch) (hw : s.writer = .answered b) (hidle : s.sys.wait = .idle) :
      StepTo args s .pop
        { s with
          sys := { s.sys with queue := (s.sys.queue.popIfFront b).1 }, writer := .waiting }
  | sleep (b : Batch) (attempt : UInt32) (delay : Duration)
      (hw : s.writer = .backoff b attempt delay) :
      StepTo args s .sleep { s with writer := .writing b attempt }
  | shutdown (b : Batch) (attempt : UInt32) (delay : Duration)
      (hw : s.writer = .backoff b attempt delay) :
      StepTo args s .shutdown { s with writer := .returned }

theorem answerStep_to {b : Batch} {attempt : UInt32} (hw : s.writer = .writing b attempt)
    (outcome : Except WriteError Unit) (now : ℕ) :
    StepTo args s (.answer outcome now) (s.answerStep args b attempt now outcome) := by
  cases outcome with
  | ok u => exact .accepted b attempt now hw
  | error e =>
    rw [answerStep]
    by_cases he : e.isRetryable = true
    · rw [if_pos he]
      exact .retry b attempt e now hw he
    · rw [if_neg he]
      exact .rejected b attempt e now hw (by simpa using he)

/-- **The step lemma**: what `step` computes is one of the above. -/
theorem step_to (h : s.step args a = some t) : StepTo args s a t := by
  cases a with
  | recv event =>
    simp only [step, Option.ite_none_right_eq_some, Option.some.injEq] at h
    obtain ⟨⟨hb, hp⟩, rfl⟩ := h
    cases event with
    | ok r => exact .recvOk r hb hp
    | lagged n => exact .recvLagged n hb
    | closed => exact .recvClosed hb hp
  | timer =>
    simp only [step, Option.ite_none_right_eq_some, Option.some.injEq] at h
    exact h.2 ▸ .timer h.1.1 h.1.2
  | enqueue =>
    simp only [step] at h
    split at h
    · next last hb =>
      rw [enqueueStep] at h
      by_cases hbuf : s.buffer = []
      · rw [if_pos hbuf, Option.some.injEq] at h
        exact h ▸ .enqueueEmpty last hb hbuf
      · rw [if_neg hbuf, Option.map_eq_some_iff] at h
        obtain ⟨sys, hsys, rfl⟩ := h
        cases QueueSys.step_to hsys with
        | push b hp => exact .enqueue last hb hbuf hp
    all_goals cases h
  | notifyOne =>
    simp only [step, Option.map_eq_some_iff] at h
    obtain ⟨sys, hsys, rfl⟩ := h
    cases QueueSys.step_to hsys with
    | notifyOne hp => exact .notifyOne hp
  | close =>
    simp only [step, Option.ite_none_right_eq_some, Option.map_eq_some_iff] at h
    obtain ⟨hb, sys, hsys, rfl⟩ := h
    cases QueueSys.step_to hsys with
    | storeClosed hp => exact .close hb hp
  | notifyWaiters =>
    simp only [step, Option.map_eq_some_iff] at h
    obtain ⟨sys, hsys, rfl⟩ := h
    cases QueueSys.step_to hsys with
    | notifyWaiters hp => exact .notifyWaiters hp
  | call =>
    simp only [step, Option.ite_none_right_eq_some, Option.map_eq_some_iff] at h
    obtain ⟨hw, sys, hsys, rfl⟩ := h
    cases QueueSys.step_to hsys with
    | call hidle => exact .call hw hidle
  | wait =>
    simp only [step, Option.ite_none_right_eq_some, Option.map_eq_some_iff] at h
    obtain ⟨hw, sys, hsys, rfl⟩ := h
    cases QueueSys.step_to hsys with
    | wait hto => exact .wait sys hw hto
  | ret =>
    simp only [step] at h
    split at h
    · next b hw hd =>
      obtain ⟨sys, hsys, rfl⟩ := Option.map_eq_some_iff.mp h
      cases QueueSys.step_to hsys with
      | ret => exact .retSome b hw hd
    · next hw hd =>
      obtain ⟨sys, hsys, rfl⟩ := Option.map_eq_some_iff.mp h
      cases QueueSys.step_to hsys with
      | ret => exact .retNone hw hd
    · cases h
  | answer outcome now =>
    simp only [step] at h
    split at h
    · next b attempt hw => exact Option.some.inj h ▸ answerStep_to hw outcome now
    · cases h
  | pop =>
    simp only [step] at h
    split at h
    · next b hw =>
      obtain ⟨sys, hsys, rfl⟩ := Option.map_eq_some_iff.mp h
      cases QueueSys.step_to hsys with
      | pop _ hidle => exact .pop b hw hidle
    · cases h
  | sleep =>
    simp only [step] at h
    split at h
    · next b attempt delay hw => exact Option.some.inj h ▸ .sleep b attempt delay hw
    · cases h
  | shutdown =>
    simp only [step] at h
    split at h
    · next b attempt delay hw => exact Option.some.inj h ▸ .shutdown b attempt delay hw
    · cases h

/-! ### The batcher -/

/-- How full the buffer is, by where the batcher stands. -/
def BufferOk (args : PipelineArgs) (s : Pipeline F) : Prop :=
  match s.batcher with
  | .select => s.buffer.length < args.batchSize
  | .enqueue _ => s.buffer.length ≤ args.batchSize
  | .close | .exited => s.buffer = []

/-- Every result received is in exactly one place, in order, and no batch is empty or too large. -/
structure BatcherInv (args : PipelineArgs) (s : Pipeline F) : Prop where
  buffer : s.BufferOk args
  conserved : s.pushed.flatMap Pushed.results ++ s.buffer = s.received
  sizes : ∀ p ∈ s.pushed, 1 ≤ p.results.length ∧ p.results.length ≤ args.batchSize
  rendered : ∀ p ∈ s.pushed, p.batch.text = batchText p.results

theorem batcherInv_new (hsize : 1 ≤ args.batchSize) : BatcherInv args (new cap : Pipeline F) where
  buffer := hsize
  conserved := rfl
  sizes := by simp [new]
  rendered := by simp [new]

omit [F64 F] in
theorem bufferOk_afterEnqueue (hsize : 1 ≤ args.batchSize) (last : Bool)
    (hb : s.batcher = afterEnqueue last) (hbuf : s.buffer = []) : s.BufferOk args := by
  cases last with
  | false =>
    simp only [BufferOk, hb, afterEnqueue, Bool.false_eq_true, if_false, hbuf, List.length_nil]
    omega
  | true => simp only [BufferOk, hb, afterEnqueue, if_true, hbuf]

theorem batcherInv_step (hsize : 1 ≤ args.batchSize) (hi : s.BatcherInv args)
    (h : s.step args a = some t) : t.BatcherInv args := by
  cases step_to h with
  | recvOk r hb =>
    have hlen : s.buffer.length < args.batchSize := by simpa [BufferOk, hb] using hi.buffer
    refine ⟨?_, ?_, hi.sizes, hi.rendered⟩
    · have hlen' : (s.buffer ++ [r]).length = s.buffer.length + 1 := List.length_append
      unfold BufferOk
      by_cases hfull : (s.buffer ++ [r]).length ≥ args.batchSize
      · simp only [if_pos hfull]
        omega
      · simp only [if_neg hfull]
        omega
    · show s.pushed.flatMap Pushed.results ++ (s.buffer ++ [r]) = s.received ++ [r]
      rw [← List.append_assoc, hi.conserved]
  | recvClosed hb =>
    have hlen : s.buffer.length < args.batchSize := by simpa [BufferOk, hb] using hi.buffer
    exact ⟨hlen.le, hi.conserved, hi.sizes, hi.rendered⟩
  | timer hb =>
    have hlen : s.buffer.length < args.batchSize := by simpa [BufferOk, hb] using hi.buffer
    exact ⟨hlen.le, hi.conserved, hi.sizes, hi.rendered⟩
  | enqueueEmpty last hb hbuf =>
    exact ⟨bufferOk_afterEnqueue hsize last rfl hbuf, hi.conserved, hi.sizes, hi.rendered⟩
  | enqueue last hb hbuf hp =>
    have hlen : s.buffer.length ≤ args.batchSize := by simpa [BufferOk, hb] using hi.buffer
    refine ⟨bufferOk_afterEnqueue hsize last rfl rfl, ?_, ?_, ?_⟩
    · show (s.pushed ++ [Pushed.mk s.buffer s.nextBatch]).flatMap Pushed.results ++ [] = s.received
      rw [List.append_nil, List.flatMap_append, List.flatMap_singleton, hi.conserved]
    · intro p hp
      rcases List.mem_append.mp hp with hold | hnew
      · exact hi.sizes p hold
      · rw [List.mem_singleton.mp hnew]
        exact ⟨List.length_pos_of_ne_nil hbuf, hlen⟩
    · intro p hp
      rcases List.mem_append.mp hp with hold | hnew
      · exact hi.rendered p hold
      · rw [List.mem_singleton.mp hnew]
        rfl
  | close hb hp =>
    have hbuf : s.buffer = [] := by simpa [BufferOk, hb] using hi.buffer
    exact ⟨hbuf, hi.conserved, hi.sizes, hi.rendered⟩
  | recvLagged | notifyOne | notifyWaiters | call | wait | retSome | retNone | accepted | rejected
  | retry | pop | sleep | shutdown => exact ⟨hi.buffer, hi.conserved, hi.sizes, hi.rendered⟩

theorem batcherInv_run (hsize : 1 ≤ args.batchSize) (h : Run (step args) ok (new cap) as s) :
    s.BatcherInv args :=
  h.invariant (batcherInv_new hsize) fun _ _ _ hb _ hst => batcherInv_step hsize hb hst

/-! ### The queue and the numbers of its batches -/

/-- The queue holds the newest of the batches pushed, and batches are numbered as they are pushed.
-/
structure QueueInv (s : Pipeline F) : Prop where
  wf : s.sys.queue.Wf
  numbered : s.pushed.map (fun p => p.batch.ptr) = List.range s.pushed.length
  contents : s.sys.queue.inner.batches <:+ s.pushed.map Pushed.batch
  idle : s.writer ≠ .waiting → s.sys.wait = .idle

/-- The number of the oldest batch still queued. -/
def front (s : Pipeline F) : ℕ := s.pushed.length - s.sys.queue.inner.batches.length

namespace QueueInv

omit [F64 F]

theorem length_le (hi : s.QueueInv) : s.sys.queue.inner.batches.length ≤ s.pushed.length := by
  simpa using hi.contents.length_le

/-- The queued batches are those from the front on. -/
theorem ptrs (hi : s.QueueInv) : s.sys.queue.inner.batches.map Batch.ptr =
    List.range' s.front s.sys.queue.inner.batches.length := by
  have hlen := hi.length_le
  obtain ⟨pre, hpre⟩ := hi.contents
  have hprelen : pre.length = s.front := by
    have := congrArg List.length hpre
    rw [List.length_append, List.length_map] at this
    rw [front]
    omega
  have hptrs : pre.map Batch.ptr ++ s.sys.queue.inner.batches.map Batch.ptr =
      List.range s.pushed.length := by
    rw [← List.map_append, hpre, List.map_map]
    exact hi.numbered
  have hdrop := congrArg (List.drop s.front) hptrs
  rw [← hprelen, List.drop_left' (List.length_map _), hprelen, List.range_eq_range',
    List.drop_range', Nat.zero_add] at hdrop
  rw [hdrop, Nat.mul_one]
  congr 1
  rw [front]
  omega

theorem head (hi : s.QueueInv) {b : Batch} {bs : List Batch}
    (hq : s.sys.queue.inner.batches = b :: bs) : b.ptr = s.front := by
  have h := hi.ptrs
  rw [hq, List.map_cons, List.length_cons, List.range'_succ] at h
  exact (List.cons.inj h).1

/-- A batch number is that of a queued batch exactly from the front on. -/
theorem queued_iff (hi : s.QueueInv) {i : ℕ} :
    (∃ b ∈ s.sys.queue.inner.batches, b.ptr = i) ↔ s.front ≤ i ∧ i < s.pushed.length := by
  have hlen := hi.length_le
  have hmem : i ∈ s.sys.queue.inner.batches.map Batch.ptr ↔ s.front ≤ i ∧ i < s.pushed.length := by
    rw [hi.ptrs, List.mem_range'_1, front]
    omega
  rw [← hmem, List.mem_map]

/-- The batches that a push evicts are the oldest. -/
theorem evictedBy_ptrs (hi : s.QueueInv) (b : Batch) : (s.sys.queue.evictedBy b).map Batch.ptr =
    List.range' s.front (s.sys.queue.evictedBy b).length := by
  have hle : (s.sys.queue.evictedBy b).length ≤ s.sys.queue.inner.batches.length := by
    rw [RetryQueue.evictedBy, List.length_take]
    exact Nat.min_le_right _ _
  have htake : s.sys.queue.evictedBy b =
      s.sys.queue.inner.batches.take (s.sys.queue.evictedBy b).length := by
    rw [RetryQueue.evictedBy, List.length_take, List.take_eq_take_iff]
    omega
  calc (s.sys.queue.evictedBy b).map Batch.ptr
      = (s.sys.queue.inner.batches.map Batch.ptr).take (s.sys.queue.evictedBy b).length := by
        rw [← List.map_take, ← htake]
    _ = List.range' s.front (s.sys.queue.evictedBy b).length := by
        rw [hi.ptrs, List.take_range'_of_length_ge hle]

theorem new (cap : ℕ) : (Pipeline.new cap : Pipeline F).QueueInv where
  wf := RetryQueue.wf_new cap
  numbered := rfl
  contents := List.nil_suffix
  idle := by simp [Pipeline.new]

end QueueInv

theorem queueInv_step (hi : s.QueueInv) (h : s.step args a = some t) : t.QueueInv := by
  have hw := hi.wf
  cases step_to h with
  | enqueue last hb hbuf hp =>
    refine ⟨hw.pushLocked, ?_, ?_, hi.idle⟩
    · show (s.pushed ++ [Pushed.mk s.buffer s.nextBatch]).map (fun p => p.batch.ptr) = _
      rw [List.map_append, hi.numbered, List.length_append, List.length_singleton,
        List.range_succ]
      rfl
    · show (s.sys.queue.pushLocked s.nextBatch).inner.batches <:+
        (s.pushed ++ [Pushed.mk s.buffer s.nextBatch]).map Pushed.batch
      obtain ⟨pre, hpre⟩ := hi.contents
      refine ⟨pre ++ s.sys.queue.evictedBy s.nextBatch, ?_⟩
      rw [List.append_assoc, RetryQueue.evictedBy_append hw, ← List.append_assoc, hpre,
        List.map_append]
      rfl
  | pop b hwr hidle =>
    refine ⟨hw.popIfFront, hi.numbered, ?_, fun hne => absurd rfl hne⟩
    exact (RetryQueue.popIfFront_suffix hw).trans hi.contents
  | wait sys hwr hto =>
    refine ⟨hw.of_eq hto.inner_eq hto.stats_eq, hi.numbered, ?_, fun hne => absurd hwr hne⟩
    show sys.queue.inner.batches <:+ _
    rw [hto.inner_eq]
    exact hi.contents
  | call hwr | retSome b hwr | retNone hwr =>
    exact ⟨hw, hi.numbered, hi.contents, fun hne => by simp_all⟩
  | accepted b attempt now hwr | rejected b attempt e now hwr =>
    exact ⟨⟨hw.1, hw.2, hw.3, hw.4⟩, hi.numbered, hi.contents, fun _ => hi.idle (by simp [hwr])⟩
  | retry b attempt e now hwr | sleep b attempt delay hwr | shutdown b attempt delay hwr =>
    exact ⟨hw, hi.numbered, hi.contents, fun _ => hi.idle (by simp [hwr])⟩
  | notifyOne | close | notifyWaiters =>
    exact ⟨⟨hw.1, hw.2, hw.3, hw.4⟩, hi.numbered, hi.contents, hi.idle⟩
  | recvOk | recvLagged | recvClosed | timer | enqueueEmpty =>
    exact ⟨hw, hi.numbered, hi.contents, hi.idle⟩

/-! ### The ledger -/

/-- What the writer holds, as the ledger sees it. -/
def hold (s : Pipeline F) : Hold :=
  match s.writer with
  | .waiting =>
    match s.sys.wait with
    | .done (some b) => .taken b.ptr
    | _ => .free
  | .writing b _ | .backoff b _ _ => .taken b.ptr
  | .answered b => .answered b.ptr
  | .returned => .free

/-- The pipeline, as the ledger sees it. -/
def ledger (s : Pipeline F) : Ledger where
  pushed := s.pushed.length
  front := s.front
  hold := s.hold
  evicted := s.evicted.map Batch.ptr
  finals := s.finals.map fun f => (f.1.ptr, f.2)

theorem ledger_enqueue (hi : s.QueueInv) {last : Bool} :
    s.ledger.step (.push (s.sys.queue.evictedBy s.nextBatch).length) = some (ledger { s with
      sys := { s.sys with queue := s.sys.queue.pushLocked s.nextBatch, producer := .notifyOne }
      buffer := []
      batcher := afterEnqueue last
      pushed := s.pushed ++ [⟨s.buffer, s.nextBatch⟩]
      evicted := s.evicted ++ s.sys.queue.evictedBy s.nextBatch }) := by
  have hlen := hi.length_le
  have hsplit := congrArg List.length (RetryQueue.evictedBy_append (b := s.nextBatch) hi.wf)
  have hpos : 0 < (s.sys.queue.pushLocked s.nextBatch).inner.batches.length :=
    List.length_pos_of_ne_nil RetryQueue.pushLocked_ne_nil
  rw [List.length_append, List.length_append, List.length_singleton] at hsplit
  have hroom : s.ledger.front + (s.sys.queue.evictedBy s.nextBatch).length ≤ s.ledger.pushed := by
    simp only [ledger, front]
    omega
  have hfront : (s.pushed ++ [Pushed.mk s.buffer s.nextBatch]).length -
      (s.sys.queue.pushLocked s.nextBatch).inner.batches.length =
        s.front + (s.sys.queue.evictedBy s.nextBatch).length := by
    rw [front, List.length_append, List.length_singleton]
    omega
  have hevicted := hi.evictedBy_ptrs s.nextBatch
  rw [Ledger.step, if_pos hroom, Option.some.injEq]
  simp only [ledger, List.map_append, hevicted, Ledger.mk.injEq, List.length_append,
    List.length_singleton, true_and]
  exact ⟨hfront.symm, rfl, trivial⟩

omit [F64 F] in
/-- `pop_if_front` removes the batch exactly when it is still the front. -/
theorem ledger_pop (hi : s.QueueInv) (hl : s.ledger.Inv) {b : Batch} (hw : s.writer = .answered b) :
    s.ledger.step .release = some (ledger { s with
      sys := { s.sys with queue := (s.sys.queue.popIfFront b).1 }, writer := .waiting }) := by
  have hhold : s.ledger.hold = .answered b.ptr := by simp [ledger, hold, hw]
  have hlt : b.ptr < s.pushed.length := by
    have hok := hl.hold_ok
    rw [Ledger.HoldOk, hhold] at hok
    exact hok.2.1
  have hidle : s.sys.wait = .idle := hi.idle (by simp [hw])
  have hlen := hi.length_le
  simp only [Ledger.step, hhold]
  rcases RetryQueue.popIfFront_cases (b := b) hi.wf with ⟨x, bs, hq, hx, h⟩ | ⟨hne, h⟩
  · have hfront : s.ledger.front = b.ptr := (hi.head hq).symm.trans hx
    have hnew : s.pushed.length - bs.length = s.front + 1 := by
      rw [hq, List.length_cons] at hlen
      rw [front, hq, List.length_cons]
      omega
    rw [if_pos hfront, h]
    simp only [ledger, hold, hidle, front, hnew]
  · have hfront : s.ledger.front ≠ b.ptr := by
      cases hq : s.sys.queue.inner.batches with
      | nil =>
        have : s.ledger.front = s.pushed.length := by simp [ledger, front, hq]
        omega
      | cons x bs =>
        have hhead : s.ledger.front = x.ptr := (hi.head hq).symm
        rw [hhead]
        exact hne x (by rw [hq]; rfl)
    rw [if_neg hfront, h]
    simp only [ledger, hold, hidle, front]

omit [F64 F] in
/-- `wait_for_batch` takes the front when it finds one. -/
theorem ledger_wait (hi : s.QueueInv) (hw : s.writer = .waiting) {sys : QueueSys}
    (hto : s.sys.WaitTo sys) :
    ledger { s with sys := sys } = s.ledger ∨
      s.ledger.step .take = some (ledger { s with sys := sys }) := by
  cases hto with
  | found b hpc hb =>
    right
    have hfree : s.ledger.hold = .free := by
      rcases hpc with hpc | ⟨n, hpc⟩ <;> simp [ledger, hold, hw, hpc]
    obtain ⟨bs, hq⟩ : ∃ bs, s.sys.queue.inner.batches = b :: bs :=
      List.head?_eq_some_iff.mp hb
    have hfront : b.ptr = s.front := hi.head hq
    have hlt : s.ledger.front < s.ledger.pushed := by
      have hlen := hi.length_le
      simp only [ledger, front, hq, List.length_cons] at hlen ⊢
      omega
    rw [Ledger.step, if_pos ⟨hfree, hlt⟩]
    simp [ledger, hold, hw, hfront, front]
  | none hpc =>
    left
    unfold QueueSys.BeforeLoad at hpc
    split at hpc
    · next h => simp [ledger, hold, hw, h, front]
    · next h => simp [ledger, hold, hw, h, front]
    · exact hpc.elim
  | empty h | «open» h | created h | emptyAgain n h | openAgain n h | asleep n h | ready n h
  | resumed h => exact .inl (by simp [ledger, hold, hw, h, front])

/-- **The refinement.** A step of the pipeline is a step of the ledger, or none that it sees. -/
theorem ledger_step (hi : s.QueueInv) (hl : s.ledger.Inv) (h : s.step args a = some t) :
    t.ledger = s.ledger ∨ ∃ b, s.ledger.step b = some t.ledger := by
  cases step_to h with
  | enqueue last hb hbuf hp => exact .inr ⟨_, ledger_enqueue hi⟩
  | pop b hw hidle => exact .inr ⟨_, ledger_pop hi hl hw⟩
  | accepted b attempt now hw =>
    exact .inr ⟨.finish .accepted, by simp [Ledger.step, ledger, hold, hw, front, withStats]⟩
  | rejected b attempt e now hw =>
    exact .inr ⟨.finish .rejected, by simp [Ledger.step, ledger, hold, hw, front, withStats]⟩
  | shutdown b attempt delay hw =>
    exact .inr ⟨.abandon, by simp [Ledger.step, ledger, hold, hw, front]⟩
  | retry b attempt e now hw => exact .inl (by simp [ledger, hold, hw, front])
  | sleep b attempt delay hw => exact .inl (by simp [ledger, hold, hw, front])
  | retSome b hw hd => exact .inl (by simp [ledger, hold, hw, hd, front])
  | retNone hw hd => exact .inl (by simp [ledger, hold, hw, hd, front])
  | call hw hidle => exact .inl (by simp [ledger, hold, hw, hidle, front])
  | wait sys hw hto => exact (ledger_wait hi hw hto).imp_right fun h => ⟨_, h⟩
  | recvOk | recvLagged | recvClosed | timer | enqueueEmpty | notifyOne | close | notifyWaiters =>
    exact .inl rfl

/-- What holds in every state: the invariants of the queue and of the ledger. -/
structure Inv (s : Pipeline F) : Prop where
  queue : s.QueueInv
  ledger : s.ledger.Inv

omit [F64 F] in
theorem inv_new : Inv (new cap : Pipeline F) := ⟨QueueInv.new cap, Ledger.inv_empty⟩

theorem inv_step (hi : s.Inv) (h : s.step args a = some t) : t.Inv := by
  refine ⟨queueInv_step hi.queue h, ?_⟩
  rcases ledger_step hi.queue hi.ledger h with heq | ⟨b, hb⟩
  · rw [heq]
    exact hi.ledger
  · exact Ledger.inv_step hi.ledger hb

theorem inv_run (h : Run (step args) ok (new cap) as s) : s.Inv :=
  h.invariant inv_new fun _ _ _ hi _ hst => inv_step hi hst

/-! ### Conservation -/

/-- The results received along a run. -/
def resultsOf (as : List (PipelineAction F)) : List (ProbeResult F) :=
  as.filterMap fun
    | .recv (.ok r) => some r
    | _ => none

theorem received_eq (h : FreeRun (step args) (new cap) as s) : s.received = resultsOf as := by
  induction h with
  | nil => rfl
  | @snoc as t a u hrun _ hst ih =>
    have happ : resultsOf (as ++ [a]) = resultsOf as ++ resultsOf [a] := List.filterMap_append
    rw [happ, ← ih]
    cases step_to hst with
    | recvOk r hb => rfl
    | recvLagged | recvClosed | timer | enqueueEmpty | enqueue | notifyOne | close | notifyWaiters
    | call | wait | retSome | retNone | accepted | rejected | retry | pop | sleep | shutdown =>
      exact (List.append_nil _).symm

omit [F64 F] in
theorem ledger_verdicts (s : Pipeline F) (i : ℕ) : s.ledger.verdicts i = s.verdicts i := by
  simp only [Ledger.verdicts, ledger, verdicts, List.filter_map, List.map_map]
  rfl

omit [F64 F] in
theorem ledger_decided (s : Pipeline F) : s.ledger.decided = s.answered := by
  simp only [Ledger.decided, ledger, answered, List.map_map]
  rfl

omit [F64 F] in
/-- The fates are those of the ledger. -/
theorem hasFate_iff (hi : s.QueueInv) {i : ℕ} {f : Ledger.Fate} :
    s.HasFate i f ↔ s.ledger.HasFate i f := by
  cases f with
  | queued => exact hi.queued_iff
  | evicted =>
    rw [HasFate, Ledger.HasFate, ledger_verdicts]
    simp only [ledger, List.mem_map]
  | accepted | rejected => simp only [HasFate, Ledger.HasFate, ledger_verdicts]

omit [F64 F] in
theorem hold_ne_answered (h : ¬ s.BetweenAnswerAndPop) (i : ℕ) : s.ledger.hold ≠ .answered i := by
  intro hh
  simp only [ledger, hold] at hh
  split at hh
  · split at hh <;> cases hh
  · cases hh
  · cases hh
  · next b hw => exact h ⟨b, hw⟩
  · cases hh

/-- **Conservation.** In every run: (a) the batches pushed so far, in push order, followed by the
buffer, are exactly the results received, in order, and every batch pushed is the text of between 1
and `batch_size` results; (b) whenever the writer is not between an answer and its `pop_if_front`,
every batch has exactly one fate; (c) batches get their final answers in increasing push order. -/
theorem conservation {F : Type} [F64 F] {args : PipelineArgs} {cap : ℕ}
    {as : List (PipelineAction F)} {s : Pipeline F} (hsize : 1 ≤ args.batchSize)
    (h : FreeRun (step args) (new cap) as s) :
    (s.pushed.flatMap Pushed.results ++ s.buffer = resultsOf as ∧
      (∀ p ∈ s.pushed, 1 ≤ p.results.length ∧ p.results.length ≤ args.batchSize ∧
        p.batch.text = batchText p.results) ∧
      s.pushed.map (fun p => p.batch.ptr) = List.range s.pushed.length) ∧
    (¬ s.BetweenAnswerAndPop → ∀ i < s.pushed.length, ∃! f, s.HasFate i f) ∧
    s.answered.Pairwise (· < ·) := by
  have hi := inv_run h
  have hb := batcherInv_run hsize h
  refine ⟨⟨?_, fun p hp => ?_, hi.queue.numbered⟩, fun hbetween i hlt => ?_, ?_⟩
  · rw [hb.conserved, received_eq h]
  · exact ⟨(hb.sizes p hp).1, (hb.sizes p hp).2, hb.rendered p hp⟩
  · simp only [hasFate_iff hi.queue]
    exact Ledger.existsUnique_fate hi.ledger (hold_ne_answered hbetween) hlt
  · rw [← ledger_decided]
    exact hi.ledger.finals_sorted

/-- Batches of one result, and no waiting between attempts. -/
def sampleArgs : PipelineArgs := ⟨1, .fromMillis 500, .fromMillis 30000⟩

/-- One result is received, pushed, and accepted. -/
def acceptOne : List (PipelineAction Decimal) :=
  [.recv (.ok sampleResult), .enqueue, .notifyOne, .call, .wait, .ret, .answer (.ok ()) 0, .pop]

theorem conservation_acceptOne :
    ∃ s, FreeRun (step sampleArgs) (new 1024) acceptOne s ∧
      s.pushed.flatMap Pushed.results ++ s.buffer = [sampleResult] ∧ ∃! f, s.HasFate 0 f := by
  obtain ⟨s, hs⟩ : ∃ s, runActions (step sampleArgs) (fun _ _ => True) (new 1024) acceptOne =
      some s := ⟨_, rfl⟩
  have hend : s.pushed.length = 1 ∧ s.writer = .waiting := by
    obtain rfl := Option.some.inj hs
    exact ⟨rfl, rfl⟩
  have hrun := run_of_runActions _ hs
  obtain ⟨⟨hconserved, -⟩, hfate, -⟩ := conservation (le_refl 1) hrun
  refine ⟨s, hrun, hconserved, hfate ?_ 0 (by omega)⟩
  rintro ⟨b, hb⟩
  rw [hend.2] at hb
  cases hb

end Pipeline

end Huginn.Influx
