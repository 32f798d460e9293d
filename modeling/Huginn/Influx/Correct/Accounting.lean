import Huginn.Influx.Correct.Pipeline

/-!
# When the counters account for every batch once

Evictions are counted in `push`, answers in the writer, which does not look at what `pop_if_front`
returned. A batch that is evicted while the writer holds it and answered all the same is counted
twice, and from then on the counters add up to more than was pushed. Runs in which this does not
happen are those whose steps all meet `Pipeline.CountsOnce`, and they are exactly the runs at whose
end the counters add up (`Pipeline.accounts_iff`).
-/

namespace Huginn.Influx

namespace Pipeline

variable {F : Type} [F64 F] {args : PipelineArgs} {s t : Pipeline F} {a : PipelineAction F}
  {as : List (PipelineAction F)} {cap : ℕ} {ok : Pipeline F → PipelineAction F → Prop}

/-! ### What the counters count -/

/-- The counters count the final answers and the evictions. -/
structure StatsInv (s : Pipeline F) : Prop where
  written : s.sys.queue.stats.writtenBatches = s.finals.countP fun f => f.2 = .accepted
  rejected : s.sys.queue.stats.rejectedBatches = s.finals.countP fun f => f.2 ≠ .accepted
  dropped : s.sys.queue.stats.droppedBatches = s.evicted.length

omit [F64 F] in
theorem statsInv_new : StatsInv (new cap : Pipeline F) := ⟨rfl, rfl, rfl⟩

omit [F64 F] in
/-- `pop_if_front` publishes the depth and leaves the other counters alone. -/
theorem popIfFront_counts (q : RetryQueue) (b : Batch) :
    (q.popIfFront b).1.stats.writtenBatches = q.stats.writtenBatches ∧
    (q.popIfFront b).1.stats.rejectedBatches = q.stats.rejectedBatches ∧
    (q.popIfFront b).1.stats.droppedBatches = q.stats.droppedBatches := by
  unfold RetryQueue.popIfFront
  split
  · split_ifs <;> exact ⟨rfl, rfl, rfl⟩
  · exact ⟨rfl, rfl, rfl⟩

theorem statsInv_step (hq : s.QueueInv) (hi : s.StatsInv) (h : s.step args a = some t) :
    t.StatsInv := by
  obtain ⟨hwritten, hrejected, hdropped⟩ := hi
  cases step_to h with
  | accepted b attempt now hw =>
    refine ⟨?_, ?_, hdropped⟩
    · rw [List.countP_append, ← hwritten]
      rfl
    · rw [List.countP_append, ← hrejected]
      rfl
  | rejected b attempt e now hw =>
    refine ⟨?_, ?_, hdropped⟩
    · rw [List.countP_append, ← hwritten]
      rfl
    · rw [List.countP_append, ← hrejected]
      rfl
  | enqueue last hb hbuf hp =>
    have heq := RetryQueue.pushLocked_eq (b := s.nextBatch) hq.wf
    refine ⟨?_, ?_, ?_⟩
    · rw [← hwritten, heq]
    · rw [← hrejected, heq]
    · rw [List.length_append, ← hdropped, RetryQueue.evictedBy_eq hq.wf, heq]
  | pop b hw hidle =>
    obtain ⟨h1, h2, h3⟩ := popIfFront_counts s.sys.queue b
    exact ⟨h1.trans hwritten, h2.trans hrejected, h3.trans hdropped⟩
  | wait sys hw hto =>
    refine ⟨?_, ?_, ?_⟩ <;> simp only [hto.stats_eq]
    · exact hwritten
    · exact hrejected
    · exact hdropped
  | recvOk | recvLagged | recvClosed | timer | enqueueEmpty | notifyOne | close | notifyWaiters
  | call | retSome | retNone | retry | sleep | shutdown => exact ⟨hwritten, hrejected, hdropped⟩

theorem statsInv_run (h : Run (step args) ok (new cap) as s) : s.StatsInv :=
  h.invariant_under inv_new (fun _ _ _ hi _ hst => inv_step hi hst) statsInv_new
    fun _ _ _ hi hs _ hst => statsInv_step hi.queue hs hst

/-- The equation that the counters are documented to meet. -/
def Accounts (s : Pipeline F) : Prop :=
  s.pushed.length = s.sys.queue.stats.queueBatches + s.sys.queue.stats.writtenBatches +
    s.sys.queue.stats.rejectedBatches + s.sys.queue.stats.droppedBatches

/-- No batch is counted as dropped and as written or rejected. -/
def NoneTwice (s : Pipeline F) : Prop := ∀ b ∈ s.evicted, b.ptr ∉ s.answered

omit [F64 F] in
/-- Outside of the writer's window the two say the same. -/
theorem accounts_iff_noneTwice (hi : s.Inv) (hs : s.StatsInv) (hb : ¬ s.BetweenAnswerAndPop) :
    s.Accounts ↔ s.NoneTwice := by
  have hledger := Ledger.accounting_iff hi.ledger (hold_ne_answered hb)
  have hfinals : s.finals.length = s.sys.queue.stats.writtenBatches +
      s.sys.queue.stats.rejectedBatches := by
    rw [hs.written, hs.rejected]
    simpa using List.length_eq_countP_add_countP (fun f : Batch × Verdict => f.2 = .accepted)
  have hqueued : s.pushed.length - s.front = s.sys.queue.stats.queueBatches := by
    have hlen := hi.queue.length_le
    rw [hi.queue.wf.depth_batches, front]
    omega
  have htwice : s.NoneTwice ↔ ∀ i ∈ s.ledger.evicted, i ∉ s.ledger.decided := by
    rw [ledger_decided]
    simp only [NoneTwice, ledger, List.mem_map, forall_exists_index, and_imp,
      forall_apply_eq_imp_iff₂]
  rw [htwice, ← hledger]
  simp only [Accounts, ledger, List.length_map, hqueued, hfinals, hs.dropped]
  omega

/-! ### Steps that count a batch once -/

omit [F64 F] in
/-- What the ledger knows about the batch that is being written. -/
theorem writing_facts (hi : s.Inv) {b : Batch} {attempt : UInt32}
    (hw : s.writer = .writing b attempt) :
    b.ptr ≤ s.front ∧ b.ptr < s.pushed.length ∧ ∀ j ∈ s.answered, j < b.ptr := by
  have hok := hi.ledger.hold_ok
  have hhold : s.ledger.hold = .taken b.ptr := by simp [ledger, hold, hw]
  rw [Ledger.HoldOk, hhold, ledger_decided] at hok
  exact hok

omit [F64 F] in
/-- What the ledger knows about the batch that has its answer. -/
theorem answered_facts (hi : s.Inv) {b : Batch} (hw : s.writer = .answered b) :
    b.ptr ≤ s.front ∧ b.ptr ∈ s.answered ∧ ∀ j ∈ s.answered, j ≤ b.ptr := by
  have hok := hi.ledger.hold_ok
  have hhold : s.ledger.hold = .answered b.ptr := by simp [ledger, hold, hw]
  rw [Ledger.HoldOk, hhold, ledger_decided] at hok
  exact ⟨hok.1, hok.2.2.1, hok.2.2.2⟩

omit [F64 F] in
/-- Only the batch that has its answer and was not popped may still be queued. -/
theorem lt_front_of_answered (hi : s.Inv) {i : ℕ} (hmem : i ∈ s.answered) (hle : s.front ≤ i) :
    ∃ b, s.writer = .answered b ∧ b.ptr = i := by
  have hok := hi.ledger.hold_ok
  rw [← ledger_decided] at hmem
  by_contra hnone
  have hne : ∀ j, s.ledger.hold = .answered j → j ≠ i := by
    rintro j hj rfl
    simp only [ledger, hold] at hj
    split at hj
    · split at hj <;> cases hj
    · cases hj
    · cases hj
    · next b hw => exact hnone ⟨b, hw, Hold.answered.inj hj⟩
    · cases hj
  have hfront : s.ledger.front = s.front := rfl
  unfold Ledger.HoldOk at hok
  split at hok
  · have := hok i hmem
    omega
  · have := hok.2.2 i hmem
    omega
  · next j hj =>
    have h1 := hok.2.2.2 i hmem
    have h2 := hne j hj
    omega

omit [F64 F] in
theorem lt_front_of_evicted (hi : s.Inv) {b : Batch} (hb : b ∈ s.evicted) : b.ptr < s.front :=
  hi.ledger.evicted_lt b.ptr (List.mem_map_of_mem hb)

/-- The history only grows. -/
theorem history_grows (h : s.step args a = some t) :
    s.evicted <+: t.evicted ∧ s.finals <+: t.finals := by
  cases step_to h with
  | enqueue => exact ⟨List.prefix_append _ _, List.prefix_rfl⟩
  | accepted | rejected => exact ⟨List.prefix_rfl, List.prefix_append _ _⟩
  | recvOk | recvLagged | recvClosed | timer | enqueueEmpty | notifyOne | close | notifyWaiters
  | call | wait | retSome | retNone | retry | pop | sleep | shutdown =>
    exact ⟨List.prefix_rfl, List.prefix_rfl⟩

/-- A batch that is counted twice stays so. -/
theorem twice_step (htwice : ¬ s.NoneTwice) (h : s.step args a = some t) : ¬ t.NoneTwice := by
  obtain ⟨hevicted, hfinals⟩ := history_grows h
  intro hnone
  refine htwice fun b hb hmem => hnone b (hevicted.subset hb) ?_
  exact List.map_subset _ hfinals.subset hmem

omit [F64 F] in
/-- A final answer about a queued batch counts it once. -/
theorem noneTwice_answer (hi : s.Inv) (hn : s.NoneTwice) {b : Batch}
    (hqueued : ∃ c ∈ s.sys.queue.inner.batches, c.ptr = b.ptr) (v : Verdict) :
    ∀ c ∈ s.evicted, c.ptr ∉ (s.finals ++ [(b, v)]).map fun f => f.1.ptr := by
  intro c hc hmem
  rw [List.map_append, List.mem_append] at hmem
  rcases hmem with hold | hnew
  · exact hn c hc hold
  · have hlt := lt_front_of_evicted hi hc
    have hle := (hi.queue.queued_iff.mp hqueued).1
    have heq : c.ptr = b.ptr := by simpa using hnew
    omega

theorem noneTwice_step (hi : s.Inv) (hok : s.CountsOnce a) (hn : s.NoneTwice)
    (h : s.step args a = some t) : t.NoneTwice := by
  cases step_to h with
  | accepted b attempt now hw =>
    exact noneTwice_answer hi hn (hok.1 b attempt _ now hw rfl rfl) _
  | rejected b attempt e now hw he =>
    have hfinal : isFinal (.error e) = true := by simp [isFinal, he]
    exact noneTwice_answer hi hn (hok.1 b attempt _ now hw rfl hfinal) _
  | enqueue last hb hbuf hp =>
    intro c hc hmem
    rcases List.mem_append.mp hc with hold | hnew
    · exact hn c hold hmem
    · -- an evicted batch was queued, so only the batch that has its answer could be meant
      have hptr : c.ptr ∈ List.range' s.front (s.sys.queue.evictedBy s.nextBatch).length := by
        rw [← hi.queue.evictedBy_ptrs]
        exact List.mem_map_of_mem hnew
      obtain ⟨b, hw, heq⟩ := lt_front_of_answered hi hmem (List.mem_range'_1.mp hptr).1
      exact hok.2 b last hw hb rfl hbuf c hnew heq.symm
  | recvOk | recvLagged | recvClosed | timer | enqueueEmpty | notifyOne | close | notifyWaiters
  | call | wait | retSome | retNone | retry | pop | sleep | shutdown => exact hn

omit [F64 F] in
/-- A batch that is being written and is not queued any more was evicted. -/
theorem evicted_of_not_queued (hi : s.Inv) {b : Batch} {attempt : UInt32}
    (hw : s.writer = .writing b attempt)
    (hnot : ¬ ∃ c ∈ s.sys.queue.inner.batches, c.ptr = b.ptr) : ∃ c ∈ s.evicted, c.ptr = b.ptr := by
  obtain ⟨hle, hlt, hbefore⟩ := writing_facts hi hw
  have hfront : b.ptr < s.ledger.front := by
    rw [hi.queue.queued_iff, not_and_or] at hnot
    show b.ptr < s.front
    omega
  rcases hi.ledger.covered b.ptr hfront with hev | hdec
  · exact List.mem_map.mp hev
  · rw [ledger_decided] at hdec
    exact absurd (hbefore _ hdec) (lt_irrefl _)

/-- A step that does not meet the condition counts a batch twice. -/
theorem twice_of_violation (hi : s.Inv) (hnot : ¬ s.CountsOnce a) (h : s.step args a = some t) :
    ¬ t.NoneTwice := by
  rw [CountsOnce, not_and_or] at hnot
  push Not at hnot
  intro hn
  rcases hnot with ⟨b, attempt, outcome, now, hw, rfl, hfinal, hqueued⟩ |
    ⟨b, last, hw, hb, rfl, hbuf, c, hc, heq⟩
  · obtain ⟨c, hc, heq⟩ := evicted_of_not_queued hi hw (by simpa using hqueued)
    cases step_to h with
    | accepted b' attempt' _ hw' =>
      obtain ⟨rfl, -⟩ := WriterPc.writing.inj (hw.symm.trans hw')
      exact hn c hc (by simp [answered, heq])
    | rejected b' attempt' e _ hw' =>
      obtain ⟨rfl, -⟩ := WriterPc.writing.inj (hw.symm.trans hw')
      exact hn c hc (by simp [answered, heq])
    | retry b' attempt' e _ hw' he => simp [isFinal, he] at hfinal
  · have hmem := (answered_facts hi hw).2.1
    cases step_to h with
    | enqueueEmpty last' hb' hbuf' => exact hbuf hbuf'
    | enqueue last' hb' hbuf' hp => exact hn c (List.mem_append_right _ hc) (heq ▸ hmem)

/-- **The counters account for every batch once, exactly when no answered batch was evicted.** At
the end of a run, outside of the window between an answer and its `pop_if_front`, the batches pushed
are those queued, written, rejected and dropped, none of them counted as dropped and as written or
rejected, if and only if every step of the run met the condition: every final answer was about a
batch that was still queued, and no push evicted a batch between its answer and its
`pop_if_front`. The counters are exact, as those of the source are up to 2^64. -/
theorem accounts_iff {F : Type} [F64 F] {args : PipelineArgs} {cap : ℕ}
    {as : List (PipelineAction F)} {s : Pipeline F} (h : FreeRun (step args) (new cap) as s)
    (hb : ¬ s.BetweenAnswerAndPop) :
    (s.Accounts ∧ s.NoneTwice) ↔ Run (step args) CountsOnce (new cap) as s := by
  have hi := inv_run h
  rw [accounts_iff_noneTwice hi (statsInv_run h) hb, and_self]
  refine FreeRun.holds_iff_run (L := fun s => ¬ s.NoneTwice) h inv_new
    (fun _ _ _ hi hst => inv_step hi hst) (fun hrun => ?_)
    (fun _ _ _ hi hnot hst => twice_of_violation hi hnot hst)
    (fun _ _ _ _ htwice hst => twice_step htwice hst) fun _ htwice => htwice
  exact hrun.invariant_under inv_new (fun _ _ _ hi _ hst => inv_step hi hst)
    (by simp [NoneTwice, new]) fun _ _ _ hi hn hok hst => noneTwice_step hi hok hn hst

theorem accounts_iff_acceptOne : ∃ s, FreeRun (step sampleArgs) (new 1024) acceptOne s ∧
    ((s.Accounts ∧ s.NoneTwice) ↔ Run (step sampleArgs) CountsOnce (new 1024) acceptOne s) := by
  obtain ⟨s, hs⟩ : ∃ s, runActions (step sampleArgs) (fun _ _ => True) (new 1024) acceptOne =
      some s := ⟨_, rfl⟩
  have hend : s.writer = .waiting := by
    obtain rfl := Option.some.inj hs
    rfl
  have hrun := run_of_runActions _ hs
  refine ⟨s, hrun, accounts_iff hrun ?_⟩
  rintro ⟨b, hb⟩
  rw [hend] at hb
  cases hb

/-- The writer holds the first batch while the second evicts it; the first is then accepted. -/
def evictHeld : List (PipelineAction Decimal) :=
  [.recv (.ok sampleResult), .enqueue, .notifyOne, .call, .wait, .ret,
    .recv (.ok sampleResult), .enqueue, .notifyOne, .answer (.ok ()) 0, .pop]

theorem evictHeld_counted_twice :
    ¬ ∀ as s, FreeRun (step sampleArgs) (new 0 : Pipeline Decimal) as s →
      ¬ s.BetweenAnswerAndPop → s.Accounts := by
  intro h
  have hsummary : (runActions (step sampleArgs) (fun _ _ => True) (new 0) evictHeld).map (fun s =>
      (s.writer, s.pushed.length, s.sys.queue.stats.queueBatches, s.sys.queue.stats.writtenBatches,
        s.sys.queue.stats.rejectedBatches, s.sys.queue.stats.droppedBatches)) =
      some (.waiting, 2, 1, 1, 0, 1) := by decide +kernel
  obtain ⟨s, hs, hend⟩ := Option.map_eq_some_iff.mp hsummary
  simp only [Prod.mk.injEq] at hend
  obtain ⟨hw, h1, h2, h3, h4, h5⟩ := hend
  have hb : ¬ s.BetweenAnswerAndPop := by
    rintro ⟨b, hb⟩
    rw [hw] at hb
    cases hb
  have hacc := h _ s (run_of_runActions _ hs) hb
  rw [Accounts, h1, h2, h3, h4, h5] at hacc
  omega

end Pipeline

end Huginn.Influx
