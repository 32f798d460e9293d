import Huginn.Influx.Correct.Accounting

/-!
# When the writer returns

Along the steps that meet `LeavesNothing`, the writer only returns once everything is drained
(`Pipeline.drained_of_returned`). A step that does not meet it loses the batches that are queued:
the writer returns, and they are still there (`Pipeline.lost_of_violation`, `Pipeline.lost_step`).
-/

namespace Huginn.Influx

namespace Pipeline

variable {F : Type} [F64 F] {args : PipelineArgs} {s t : Pipeline F} {a : PipelineAction F}
  {as : List (PipelineAction F)} {cap : ℕ}

/-! ### What the writer holds -/

/-- While the writer holds a batch, the queue is not empty: only the writer takes batches out, and
what evicts a batch takes its place. -/
def TakenInv (s : Pipeline F) : Prop :=
  ∀ i, s.hold = .taken i → s.sys.queue.inner.batches ≠ []

omit [F64 F] in
theorem takenInv_new : TakenInv (new cap : Pipeline F) := by
  intro i h
  cases h

theorem takenInv_step (hi : s.TakenInv) (h : s.step args a = some t) :
    t.TakenInv := by
  intro i ht
  cases step_to h with
  | enqueue => exact RetryQueue.pushLocked_ne_nil
  | wait sys hw hto =>
    rw [hto.inner_eq]
    cases hto with
    | found b _ hb =>
      intro hnil
      rw [RetryQueue.peek, hnil] at hb
      cases hb
    | none | empty | «open» | created | emptyAgain | openAgain | ready | asleep | resumed =>
      simp [hold, hw] at ht
  | call hw | retNone hw => simp [hold, hw] at ht
  | retSome b hw hd => exact hi b.ptr (by simp [hold, hw, hd])
  | accepted | rejected => cases ht
  | retry b _ _ _ hw => exact hi b.ptr (by simp [hold, hw])
  | sleep b _ _ hw => exact hi b.ptr (by simp [hold, hw])
  | pop b hw hidle => simp [hold, hidle] at ht
  | shutdown => cases ht
  | recvOk | recvLagged | recvClosed | timer | enqueueEmpty | notifyOne | close | notifyWaiters =>
    exact hi i ht

/-! ### Returning with everything drained -/

/-- Once the queue is closed and the writer has found it empty, nothing is left. -/
structure DrainInv (s : Pipeline F) : Prop where
  closed : s.sys.queue.closed = true ↔ s.batcher = .exited
  sys : s.sys.DrainInv
  returned : s.writer = .returned → s.sys.queue.closed = true ∧ s.sys.queue.inner.batches = []

omit [F64 F] in
theorem drainInv_new : DrainInv (new cap : Pipeline F) where
  closed := by simp [new, QueueSys.new, RetryQueue.new]
  sys := QueueSys.drainInv_new
  returned := by simp [new]

omit [F64 F] in
/-- A step of the batcher before `close` leaves the queue open. -/
theorem closed_iff_of_open (hi : s.DrainInv) (hb : s.batcher ≠ .exited) {batcher : BatcherPc}
    (hb' : batcher ≠ .exited) : s.sys.queue.closed = true ↔ batcher = .exited := by
  constructor
  · intro hc
    exact absurd (hi.closed.mp hc) hb
  · intro hx
    exact absurd hx hb'

/-- **The step lemma.** The writer returns when it has found the queue closed and empty, and it
stays so: the batcher is done, and nothing is pushed any more. -/
theorem drainInv_step (hi : s.DrainInv) (hok : s.LeavesNothing a) (h : s.step args a = some t) :
    t.DrainInv := by
  have hne : ∀ last : Bool, afterEnqueue last ≠ .exited := by
    intro last
    cases last <;> decide
  -- what a step on the queue keeps, when it is not the store of the flag
  have hsys : ∀ b sys, b ≠ .storeClosed → s.sys.step b = some sys → sys.DrainInv :=
    fun b sys hb hst => QueueSys.drainInv_step hi.sys (fun hb' => absurd hb' hb) hst
  cases step_to h with
  | recvOk r hb =>
    refine ⟨closed_iff_of_open hi (by simp [hb]) ?_, hi.sys, hi.returned⟩
    split_ifs <;> simp
  | recvLagged => exact hi
  | recvClosed hb | timer hb =>
    exact ⟨closed_iff_of_open hi (by simp [hb]) (by simp), hi.sys, hi.returned⟩
  | enqueueEmpty last hb =>
    exact ⟨closed_iff_of_open hi (by simp [hb]) (hne last), hi.sys, hi.returned⟩
  | enqueue last hb hbuf hp =>
    have hopen := closed_iff_of_open hi (by simp [hb]) (hne last)
    refine ⟨hopen, hsys (.push s.nextBatch) _ (by simp) (by rw [QueueSys.step, if_pos hp]), ?_⟩
    exact fun hw => absurd (hopen.mp (hi.returned hw).1) (hne last)
  | notifyOne hp =>
    exact ⟨hi.closed, hsys .notifyOne _ (by simp) (by rw [QueueSys.step, if_pos hp]), hi.returned⟩
  | close hb hp =>
    have hstored := QueueSys.drainInv_step (a := .storeClosed) hi.sys (fun _ => hok.2 rfl)
      (by rw [QueueSys.step, if_pos hp])
    exact ⟨iff_of_true rfl rfl, hstored, fun hw => ⟨rfl, (hi.returned hw).2⟩⟩
  | notifyWaiters hp =>
    exact ⟨hi.closed, hsys .notifyWaiters _ (by simp) (by rw [QueueSys.step, if_pos hp]),
      hi.returned⟩
  | call hw hidle =>
    exact ⟨hi.closed, hsys .call _ (by simp) (by rw [QueueSys.step, if_pos hidle]), hi.returned⟩
  | wait sys hw hto =>
    refine ⟨?_, QueueSys.drainInv_wait hi.sys hto, by simp [hw]⟩
    rw [hto.closed_eq]
    exact hi.closed
  | retSome b hw hd =>
    exact ⟨hi.closed, hsys .ret _ (by simp) (by rw [QueueSys.step, hd]), by simp⟩
  | retNone hw hd =>
    exact ⟨hi.closed, hsys .ret _ (by simp) (by rw [QueueSys.step, hd]), fun _ => hi.sys.done hd⟩
  | accepted | rejected =>
    exact ⟨hi.closed, ⟨hi.sys.closed, hi.sys.before_load, hi.sys.done⟩, by simp⟩
  | retry | sleep => exact ⟨hi.closed, hi.sys, by simp⟩
  | shutdown => exact absurd rfl hok.1
  | pop b hw hidle =>
    refine ⟨?_, hsys (.pop b) _ (by simp) (by rw [QueueSys.step, if_pos hidle]), by simp⟩
    rw [RetryQueue.popIfFront_closed]
    exact hi.closed

omit [F64 F] in
theorem ptr_lt (hq : s.QueueInv) {p : Pushed F} (hp : p ∈ s.pushed) :
    p.batch.ptr < s.pushed.length := by
  have hmem : p.batch.ptr ∈ s.pushed.map fun p => p.batch.ptr := List.mem_map_of_mem hp
  rw [hq.numbered, List.mem_range] at hmem
  exact hmem

omit [F64 F] in
/-- When the queue is empty and no answer is pending, every batch pushed was answered or evicted. -/
theorem fate_of_empty (hi : s.Inv) (hbetween : ¬ s.BetweenAnswerAndPop)
    (hempty : s.sys.queue.inner.batches = []) {p : Pushed F} (hp : p ∈ s.pushed) :
    s.HasFate p.batch.ptr .accepted ∨ s.HasFate p.batch.ptr .rejected ∨
      s.HasFate p.batch.ptr .evicted := by
  obtain ⟨f, hf, -⟩ := Ledger.existsUnique_fate hi.ledger (hold_ne_answered hbetween)
    (ptr_lt hi.queue hp)
  have hfate := (hasFate_iff hi.queue).mpr hf
  cases f with
  | queued =>
    obtain ⟨b, hb, -⟩ := hfate
    rw [hempty] at hb
    exact absurd hb List.not_mem_nil
  | evicted => exact .inr (.inr hfate)
  | accepted => exact .inl hfate
  | rejected => exact .inr (.inl hfate)

/-- **A run that leaves nothing.** When the writer has returned, everything is drained. -/
theorem drained_of_returned (hsize : 1 ≤ args.batchSize)
    (h : Run (step args) LeavesNothing (new cap) as s) (hw : s.writer = .returned) : s.Drained := by
  have hb := batcherInv_run hsize h
  have hd : s.DrainInv := h.invariant drainInv_new fun _ _ _ hd hok hst => drainInv_step hd hok hst
  obtain ⟨hclosed, hempty⟩ := hd.returned hw
  have hexited : s.batcher = .exited := hd.closed.mp hclosed
  have hbuf : s.buffer = [] := by simpa [BufferOk, hexited] using hb.buffer
  have hbetween : ¬ s.BetweenAnswerAndPop := by
    rintro ⟨b, hb⟩
    rw [hw] at hb
    cases hb
  refine ⟨hexited, hbuf, hclosed, hempty, ?_,
    fun p hp => fate_of_empty (inv_run h) hbetween hempty hp, (statsInv_run h).dropped⟩
  have hconserved := hb.conserved
  rw [hbuf, List.append_nil] at hconserved
  exact hconserved

/-! ### Returning with batches queued -/

/-- Batches are queued, and the writer has returned, or is about to. -/
def Lost (s : Pipeline F) : Prop :=
  s.sys.queue.inner.batches ≠ [] ∧
    (s.writer = .returned ∨ (s.writer = .waiting ∧
      (s.sys.wait = .done none ∨ (s.sys.queue.closed = true ∧ s.sys.BeforeLoad))))

/-- What is lost stays lost. -/
theorem lost_step (hl : s.Lost) (h : s.step args a = some t) : t.Lost := by
  obtain ⟨hne, hwriter⟩ := hl
  cases step_to h with
  | enqueue last hb hbuf hp => exact ⟨RetryQueue.pushLocked_ne_nil, hwriter⟩
  | close hb hp =>
    refine ⟨hne, hwriter.imp_right fun ⟨hw, hpc⟩ => ⟨hw, ?_⟩⟩
    exact hpc.imp_right fun hbefore => ⟨rfl, hbefore.2⟩
  | recvOk | recvLagged | recvClosed | timer | enqueueEmpty | notifyOne | notifyWaiters =>
    exact ⟨hne, hwriter⟩
  | call hw hidle => simp [hw, hidle, QueueSys.BeforeLoad] at hwriter
  | retSome b hw hd => simp [hw, hd, QueueSys.BeforeLoad] at hwriter
  | retNone hw hd => exact ⟨hne, .inl rfl⟩
  | wait sys hw hto =>
    refine ⟨?_, .inr ⟨hw, .inl ?_⟩⟩
    · rw [hto.inner_eq]
      exact hne
    · rcases hwriter with hret | ⟨-, hdone | ⟨hclosed, hbefore⟩⟩
      · rw [hw] at hret
        cases hret
      · exact absurd hdone (hto.not_done none)
      · exact hto.done_of_closed hclosed hbefore
  | accepted b attempt now hw | rejected b attempt e now hw | retry b attempt e now hw
  | sleep b attempt delay hw | pop b hw =>
    simp [hw] at hwriter
  | shutdown => exact ⟨hne, .inl rfl⟩

/-- A step that does not meet the condition loses what is queued. -/
theorem lost_of_violation (hq : s.QueueInv) (htaken : s.TakenInv) (hnot : ¬ s.LeavesNothing a)
    (h : s.step args a = some t) : t.Lost := by
  rw [LeavesNothing, not_and_or, not_not] at hnot
  rcases hnot with rfl | hclose
  · cases step_to h with
    | shutdown b attempt delay hw => exact ⟨htaken b.ptr (by simp [hold, hw]), .inl rfl⟩
  · push Not at hclose
    obtain ⟨rfl, hbefore, hne⟩ := hclose
    cases step_to h with
    | close hb hp =>
      -- the writer is in `wait_for_batch`, so it stands before the load that follows
      have hw : s.writer = .waiting := by
        by_contra hw
        rw [QueueSys.BeforeLoad, hq.idle hw] at hbefore
        exact hbefore
      exact ⟨hne, .inr ⟨hw, .inr ⟨rfl, hbefore⟩⟩⟩

end Pipeline

end Huginn.Influx
