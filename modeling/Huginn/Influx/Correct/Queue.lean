import Huginn.Influx.Queue
import Huginn.Lib.DropOldest

/-!
# The retry queue keeps its books

`RetryQueue.Wf` is the representation invariant: `bytes` is the total length of the queued batches,
no subtraction has underflowed, and the published depth is the true one. Every operation keeps it.

Under it the eviction loop of `push` is the abstract `DropOldest.trim` (`evictLoop_eq`), so the
contents after a push are `DropOldest.pushTrim` of the contents before (`pushLocked_batches`), and
what the loop counts as dropped is what it dropped.
-/

namespace Huginn.Influx

open DropOldest

namespace RetryQueue

/-! ### One call -/

/-- The representation invariant. -/
structure Wf (q : RetryQueue) : Prop where
  bytes_eq : q.inner.bytes = weight Batch.len q.inner.batches
  no_underflow : q.inner.underflow = false
  depth_batches : q.stats.queueBatches = q.inner.batches.length
  depth_bytes : q.stats.queueBytes = q.inner.bytes

variable {q : RetryQueue} {b : Batch}

/-- The eviction loop drops what `trim` drops, counts it, and never underflows. -/
theorem evictLoop_eq (cap len : ℕ) (batches : List Batch) (stats : WriteStats) :
    evictLoop cap len batches (weight Batch.len batches) false stats =
      (⟨DropOldest.trim Batch.len cap len batches,
          weight Batch.len (DropOldest.trim Batch.len cap len batches), false⟩,
        { stats with
          droppedBatches := stats.droppedBatches + (dropped Batch.len cap len batches).length
          droppedBytes :=
            stats.droppedBytes + weight Batch.len (dropped Batch.len cap len batches) })
    := by
  induction batches generalizing stats with
  | nil => rfl
  | cons old batches ih =>
    rw [evictLoop, DropOldest.trim, dropped]
    split_ifs with h
    · have hbytes : weight Batch.len (old :: batches) - old.len = weight Batch.len batches := by
        rw [weight_cons, Nat.add_sub_cancel_left]
      have hno : decide (weight Batch.len (old :: batches) < old.len) = false := by
        simp
      simp only [Inner.subBytes, hbytes, hno, Bool.or_false]
      rw [ih]
      simp only [WriteStats.recordEviction, List.length_cons, weight_cons]
      congr 2 <;> omega
    · rfl

/-- **What a push does.** The contents become the newest batches that fit, the rest is counted as
dropped, and the depth is published. -/
theorem pushLocked_eq (hw : q.Wf) :
    q.pushLocked b =
      { q with
        inner := ⟨pushTrim Batch.len q.capacityBytes q.inner.batches b,
          weight Batch.len (pushTrim Batch.len q.capacityBytes q.inner.batches b), false⟩
        stats :=
          { q.stats with
            queueBatches := (pushTrim Batch.len q.capacityBytes q.inner.batches b).length
            queueBytes := weight Batch.len (pushTrim Batch.len q.capacityBytes q.inner.batches b)
            droppedBatches := q.stats.droppedBatches +
              (dropped Batch.len q.capacityBytes b.len q.inner.batches).length
            droppedBytes := q.stats.droppedBytes +
              weight Batch.len (dropped Batch.len q.capacityBytes b.len q.inner.batches) } } := by
  have hbytes := hw.bytes_eq
  have hno := hw.no_underflow
  simp only [pushLocked, hbytes, hno, evictLoop_eq, WriteStats.setQueueDepth, pushTrim,
    weight_append, weight_cons, weight_nil, Nat.add_zero]

theorem pushLocked_batches (hw : q.Wf) :
    (q.pushLocked b).inner.batches = pushTrim Batch.len q.capacityBytes q.inner.batches b := by
  rw [pushLocked_eq hw]

/-- The batches that a push evicts, as the abstract buffer drops them. -/
theorem evictedBy_eq (hw : q.Wf) :
    q.evictedBy b = dropped Batch.len q.capacityBytes b.len q.inner.batches := by
  set d := dropped Batch.len q.capacityBytes b.len q.inner.batches with hd
  have hsplit : d ++ DropOldest.trim Batch.len q.capacityBytes b.len q.inner.batches =
      q.inner.batches :=
    dropped_append_trim Batch.len q.capacityBytes b.len q.inner.batches
  have hlen := congrArg List.length hsplit
  rw [List.length_append] at hlen
  have hcount : q.inner.batches.length + 1 - (q.pushLocked b).inner.batches.length = d.length := by
    rw [pushLocked_batches hw, pushTrim, List.length_append, List.length_singleton]
    omega
  calc q.evictedBy b = q.inner.batches.take d.length := by rw [evictedBy, hcount]
    _ = (d ++ DropOldest.trim Batch.len q.capacityBytes b.len q.inner.batches).take d.length := by
      rw [hsplit]
    _ = d := List.take_left

/-- What a push evicts and what it keeps of the old contents are the two parts of them. -/
theorem evictedBy_append (hw : q.Wf) :
    q.evictedBy b ++ (q.pushLocked b).inner.batches = q.inner.batches ++ [b] := by
  rw [evictedBy_eq hw, pushLocked_batches hw, pushTrim, ← List.append_assoc, dropped_append_trim]

theorem wf_new (capacityBytes : ℕ) : (new capacityBytes .default).Wf :=
  ⟨rfl, rfl, rfl, rfl⟩

theorem Wf.pushLocked (hw : q.Wf) : (q.pushLocked b).Wf := by
  rw [pushLocked_eq hw]
  exact ⟨rfl, rfl, rfl, rfl⟩

/-- The invariant is about the contents and the published depth only. -/
theorem Wf.of_eq {q' : RetryQueue} (hw : q.Wf) (hinner : q'.inner = q.inner)
    (hstats : q'.stats = q.stats) : q'.Wf := by
  obtain ⟨h1, h2, h3, h4⟩ := hw
  exact ⟨by rw [hinner, h1], by rw [hinner, h2], by rw [hinner, hstats, h3],
    by rw [hinner, hstats, h4]⟩

theorem Wf.notifyOne (hw : q.Wf) : q.notifyOne.Wf := ⟨hw.1, hw.2, hw.3, hw.4⟩

theorem Wf.push (hw : q.Wf) : (q.push b).Wf := hw.pushLocked.notifyOne

/-- **What a pop does.** It removes the front if that is the very batch that was passed, and then
publishes the depth; otherwise it changes nothing. -/
theorem popIfFront_cases (hw : q.Wf) :
    (∃ front batches, q.inner.batches = front :: batches ∧ front.ptr = b.ptr ∧
      q.popIfFront b =
        ({ q with
          inner := ⟨batches, weight Batch.len batches, false⟩
          stats :=
            { q.stats with
              queueBatches := batches.length
              queueBytes := weight Batch.len batches } }, true)) ∨
    ((∀ front ∈ q.inner.batches.head?, front.ptr ≠ b.ptr) ∧ q.popIfFront b = (q, false)) := by
  cases hb : q.inner.batches with
  | nil => exact .inr ⟨by simp, by rw [popIfFront, hb]⟩
  | cons front batches =>
    by_cases hp : front.ptr = b.ptr
    · refine .inl ⟨front, batches, rfl, hp, ?_⟩
      have hbytes : q.inner.bytes - front.len = weight Batch.len batches := by
        rw [hw.bytes_eq, hb, weight_cons, Nat.add_sub_cancel_left]
      have hno : decide (q.inner.bytes < front.len) = false := by
        rw [hw.bytes_eq, hb, weight_cons]
        simp
      simp only [popIfFront, hb, Batch.ptrEq, hp, beq_self_eq_true, if_true, Inner.subBytes, hbytes,
        hno, hw.no_underflow, Bool.or_false, WriteStats.setQueueDepth]
    · refine .inr ⟨by simpa using hp, ?_⟩
      have hne : front.ptrEq b = false := by simpa [Batch.ptrEq] using hp
      simp only [popIfFront, hb, hne, Bool.false_eq_true, if_false]

theorem Wf.popIfFront (hw : q.Wf) : (q.popIfFront b).1.Wf := by
  rcases popIfFront_cases (b := b) hw with ⟨_, _, _, _, h⟩ | ⟨_, h⟩
  · rw [h]
    exact ⟨rfl, rfl, rfl, rfl⟩
  · rw [h]
    exact hw

theorem popIfFront_suffix (hw : q.Wf) : (q.popIfFront b).1.inner.batches <:+ q.inner.batches := by
  rcases popIfFront_cases (b := b) hw with ⟨front, batches, hq, _, h⟩ | ⟨_, h⟩
  · rw [h, hq]
    exact List.suffix_cons front batches
  · rw [h]

/-- A refused pop changes nothing. -/
theorem popIfFront_refused (h : (q.popIfFront b).2 = false) : (q.popIfFront b).1 = q := by
  unfold RetryQueue.popIfFront at h ⊢
  split at h
  · split_ifs at h ⊢
    rfl
  · rfl

@[simp]
theorem pushLocked_capacityBytes : (q.pushLocked b).capacityBytes = q.capacityBytes := rfl

@[simp]
theorem push_capacityBytes : (q.push b).capacityBytes = q.capacityBytes := rfl

@[simp]
theorem popIfFront_capacityBytes : (q.popIfFront b).1.capacityBytes = q.capacityBytes := by
  unfold RetryQueue.popIfFront
  split
  · split_ifs <;> rfl
  · rfl

/-! ### Sequences of calls -/

theorem Wf.apply (hw : q.Wf) (op : Op) : (q.apply op).Wf := by
  cases op with
  | push batch => exact hw.push
  | peek => exact hw
  | popIfFront written => exact hw.popIfFront

theorem Wf.run (hw : q.Wf) (ops : List Op) : (q.run ops).Wf := by
  induction ops generalizing q with
  | nil => exact hw
  | cons op ops ih => exact ih (hw.apply op)

theorem run_capacityBytes (ops : List Op) : (q.run ops).capacityBytes = q.capacityBytes := by
  induction ops generalizing q with
  | nil => rfl
  | cons op ops ih =>
    refine ih.trans ?_
    cases op <;> simp [RetryQueue.apply]

/-- One call leaves a suffix of the old contents followed by what was pushed. -/
theorem apply_suffix (hw : q.Wf) (op : Op) :
    (q.apply op).inner.batches <:+ q.inner.batches ++ pushHistory [op] := by
  cases op with
  | push batch => exact ⟨q.evictedBy batch, evictedBy_append hw⟩
  | peek => exact ⟨[], by simp [RetryQueue.apply, pushHistory]⟩
  | popIfFront written =>
    have happ : q.inner.batches ++ pushHistory [.popIfFront written] = q.inner.batches := by
      simp [pushHistory]
    rw [happ]
    exact popIfFront_suffix hw

/-- After a sequence of calls the contents are a suffix of the old contents followed by everything
pushed. -/
theorem run_suffix (hw : q.Wf) (ops : List Op) :
    (q.run ops).inner.batches <:+ q.inner.batches ++ pushHistory ops := by
  induction ops generalizing q with
  | nil => exact ⟨[], by simp [RetryQueue.run, pushHistory]⟩
  | cons op ops ih =>
    obtain ⟨pre, hpre⟩ := ih (hw.apply op)
    obtain ⟨pre', hpre'⟩ := apply_suffix hw op
    have hcons : pushHistory (op :: ops) = pushHistory [op] ++ pushHistory ops :=
      List.filterMap_append (l := [op])
    refine ⟨pre' ++ pre, ?_⟩
    rw [hcons, ← List.append_assoc, ← hpre', List.append_assoc, List.append_assoc, ← hpre]
    rfl

/-- The weight stays within the capacity, or one batch is queued, from any such state on. -/
theorem run_bounded (hw : q.Wf)
    (hq : q.inner.bytes ≤ q.capacityBytes ∨ q.inner.batches.length = 1) (ops : List Op) :
    (q.run ops).inner.bytes ≤ q.capacityBytes ∨ (q.run ops).inner.batches.length = 1 := by
  induction ops generalizing q with
  | nil => exact hq
  | cons op ops ih =>
    have hcap : (q.apply op).capacityBytes = q.capacityBytes := run_capacityBytes [op]
    rw [← hcap]
    refine ih (hw.apply op) ?_
    rw [hcap]
    cases op with
    | push batch =>
      rw [(hw.apply (.push batch)).bytes_eq]
      simp only [RetryQueue.apply, RetryQueue.push, RetryQueue.notifyOne, pushLocked_batches hw]
      refine (weight_pushTrim_le Batch.len q.capacityBytes).imp_right fun h => ?_
      rw [h, List.length_singleton]
    | peek => exact hq
    | popIfFront written =>
      rcases popIfFront_cases (b := written) hw with ⟨front, batches, hb, _, h⟩ | ⟨_, h⟩
      · have hbytes := hw.bytes_eq
        rw [hb, weight_cons] at hbytes
        simp only [RetryQueue.apply, h]
        rcases hq with hle | hone
        · left
          omega
        · have hnil : batches = [] := by simpa [hb] using hone
          simp [hnil]
      · simp only [RetryQueue.apply, h]
        exact hq

/-- The drop counters grow by what is evicted. -/
theorem run_dropped (hw : q.Wf) (ops : List Op) :
    (q.run ops).stats.droppedBatches = q.stats.droppedBatches + (q.evictions ops).length ∧
    (q.run ops).stats.droppedBytes =
      q.stats.droppedBytes + weight Batch.len (q.evictions ops) := by
  induction ops generalizing q with
  | nil => exact ⟨rfl, rfl⟩
  | cons op ops ih =>
    obtain ⟨h1, h2⟩ := ih (hw.apply op)
    have hone : (q.apply op).stats.droppedBatches =
          q.stats.droppedBatches + (q.evictedByOp op).length ∧
        (q.apply op).stats.droppedBytes =
          q.stats.droppedBytes + weight Batch.len (q.evictedByOp op) := by
      cases op with
      | push batch =>
        simp only [RetryQueue.apply, RetryQueue.push, RetryQueue.notifyOne, pushLocked_eq hw,
          evictedByOp, evictedBy_eq hw]
        exact ⟨trivial, trivial⟩
      | peek => exact ⟨rfl, rfl⟩
      | popIfFront written =>
        rcases popIfFront_cases (b := written) hw with ⟨_, _, _, _, h⟩ | ⟨_, h⟩ <;>
          simp only [RetryQueue.apply, h] <;> exact ⟨rfl, rfl⟩
    rw [evictions, List.length_append, weight_append, ← Nat.add_assoc, ← Nat.add_assoc,
      ← hone.1, ← hone.2]
    exact ⟨h1, h2⟩

/-- **The law of the retry queue.** After any sequence of calls: the contents are a contiguous
suffix of what was pushed; `bytes` is their total length and no subtraction underflowed; the next
push leaves the longest suffix of contents and new batch that fits, or the new batch alone when no
suffix that contains it fits; the capacity is exceeded only by a batch that is queued alone; a
refused pop changes nothing; the published depth is the true one; and the drop counters are those of
exactly the evicted batches. -/
theorem law (capacityBytes : ℕ) (ops : List Op) :
    let q := (new capacityBytes .default).run ops
    q.inner.batches <:+ pushHistory ops ∧
    q.inner.bytes = weight Batch.len q.inner.batches ∧ q.inner.underflow = false ∧
    (∀ b,
      ((∃ t, t <:+ q.inner.batches ++ [b] ∧ t ≠ [] ∧ weight Batch.len t ≤ capacityBytes) →
        IsLongestFit Batch.len capacityBytes (q.inner.batches ++ [b]) (q.push b).inner.batches) ∧
      ((¬ ∃ t, t <:+ q.inner.batches ++ [b] ∧ t ≠ [] ∧ weight Batch.len t ≤ capacityBytes) →
        (q.push b).inner.batches = [b])) ∧
    (q.inner.bytes ≤ capacityBytes ∨ q.inner.batches.length = 1) ∧
    (∀ b, (q.popIfFront b).2 = false → (q.popIfFront b).1 = q) ∧
    q.stats.queueBatches = q.inner.batches.length ∧ q.stats.queueBytes = q.inner.bytes ∧
    q.stats.droppedBatches = ((new capacityBytes .default).evictions ops).length ∧
    q.stats.droppedBytes = weight Batch.len ((new capacityBytes .default).evictions ops) := by
  intro q
  have hw : q.Wf := (wf_new capacityBytes).run ops
  have hcap : q.capacityBytes = capacityBytes := run_capacityBytes ops
  have hdropped := run_dropped (wf_new capacityBytes) ops
  refine ⟨run_suffix (wf_new capacityBytes) ops, hw.bytes_eq, hw.no_underflow, fun b => ?_,
    run_bounded (wf_new capacityBytes) (.inl (Nat.zero_le _)) ops,
    fun b => popIfFront_refused, hw.depth_batches, hw.depth_bytes,
    hdropped.1.trans (Nat.zero_add _), hdropped.2.trans (Nat.zero_add _)⟩
  have hpush : (q.push b).inner.batches = pushTrim Batch.len capacityBytes q.inner.batches b := by
    rw [← hcap]
    exact pushLocked_batches hw
  rw [hpush, exists_fit_iff]
  exact ⟨fun hfit => isLongestFit_pushTrim Batch.len capacityBytes hfit,
    fun hfit => pushTrim_of_lt Batch.len capacityBytes (not_le.mp hfit)⟩

end RetryQueue

end Huginn.Influx
