import Huginn.Influx.Correct.Backoff

/-!
# How many attempts the writer survives

The counter of the retry loop is the number of failures of the batch so far, until it stops at the
largest `u32` (`attemptsInv_run`). For the log the retry arm adds one to it, and of all its
arithmetic only this sum can overflow (`Retry.exact_iff`). So no arithmetic of the arm overflows in
a run exactly when no batch fails `2 ^ 32` times, or warnings are not logged (`retries_exact_iff`).

A run goes on after an arm as the arm says (`writer_of_retryArm`). In a build with overflow checks
it ends at the first arm that overflows, with the task.
-/

namespace Huginn.Influx

/-- The retry arm as it is taken once: the batch, the failure, the counter, and how many batches are
queued. -/
structure Retry where
  batch : Batch
  error : WriteError
  attempt : UInt32
  queuedBatches : ℕ
  deriving DecidableEq, Repr

/-- No arithmetic of the arm overflows. It does not panic, and each number is what it would be
without a bound: the counter stops at its largest value by intention, and a product that is no
duration is above the ceiling that takes its place. -/
structure Retry.Exact (mode : WriterMode) (args : PipelineArgs) (r : Retry) : Prop where
  shift : ∃ k, checkedShl 1 (if r.attempt ≤ 31 then r.attempt else 31) = some k ∧
    k.toNat = 2 ^ min r.attempt.toNat 31
  mul : ∀ k, checkedShl 1 (if r.attempt ≤ 31 then r.attempt else 31) = some k →
    args.initialBackoff.checkedMul k = none →
      args.maxBackoff.nanos < args.initialBackoff.nanos * k.toNat
  arm : ∃ arm, retryArm mode args.initialBackoff args.maxBackoff r.error r.attempt
      r.queuedBatches = .ok arm ∧
    arm.attempt.toNat = min (r.attempt.toNat + 1) (2 ^ 32 - 1) ∧
    ∀ w ∈ arm.warning, w.attempt.toNat = r.attempt.toNat + 1 ∧
      w.delayMs.toNat = arm.delay.asMillis

/-! ### One arm -/

section Arm

variable {mode : WriterMode} {initial max delay : Duration} {e : WriteError} {attempt : UInt32}
  {queuedBatches : ℕ}

/-- A sum on `u32` is exact when it fits. -/
theorem addU32_exact_iff (overflowChecks : Bool) {a b : UInt32} :
    (∃ c, addU32 overflowChecks a b = .ok c ∧ c.toNat = a.toNat + b.toNat) ↔
      a.toNat + b.toNat < 2 ^ 32 := by
  constructor
  · rintro ⟨c, -, hc⟩
    rw [← hc]
    exact c.toNat_lt
  · intro h
    refine ⟨a + b, if_neg ?_, ?_⟩
    · rintro ⟨-, hover⟩
      omega
    · rw [UInt32.toNat_add, Nat.mod_eq_of_lt h]

theorem retryArm_eq_ok_iff {arm : RetryArm} :
    retryArm mode initial max e attempt queuedBatches = .ok arm ↔
      retryWarning mode e attempt (retryDelay initial max e attempt) queuedBatches =
          .ok arm.warning ∧
        arm.attempt = saturatingSucc attempt ∧ arm.delay = retryDelay initial max e attempt := by
  unfold retryArm
  dsimp only
  cases retryWarning mode e attempt (retryDelay initial max e attempt) queuedBatches with
  | error msg => exact iff_of_false (fun h => nomatch h) fun h => nomatch h.1
  | ok w =>
    constructor
    · intro h
      obtain rfl := Except.ok.inj h
      exact ⟨rfl, rfl, rfl⟩
    · rintro ⟨hw, hattempt, hdelay⟩
      obtain rfl := Except.ok.inj hw
      rw [← hattempt, ← hdelay]
      rfl

/-- The warning is exact when it is not logged, or the number of the attempt fits. -/
theorem retryWarning_exact_iff (mode : WriterMode) (e : WriteError) (queuedBatches : ℕ)
    (hdelay : delay.asMillis < 2 ^ 64) :
    (∃ warning, retryWarning mode e attempt delay queuedBatches = .ok warning ∧
        ∀ w ∈ warning, w.attempt.toNat = attempt.toNat + 1 ∧ w.delayMs.toNat = delay.asMillis) ↔
      (mode.logsWarnings = true → attempt.toNat < 2 ^ 32 - 1) := by
  have hone : (1 : UInt32).toNat = 1 := rfl
  unfold retryWarning
  split_ifs with hlogs
  · rw [forall_prop_of_true hlogs]
    constructor
    · rintro ⟨warning, hwarning, hexact⟩
      cases hadd : addU32 mode.overflowChecks attempt 1 with
      | error msg =>
        rw [hadd] at hwarning
        cases hwarning
      | ok number =>
        rw [hadd] at hwarning
        obtain rfl := Except.ok.inj hwarning
        have hnumber : number.toNat = attempt.toNat + 1 := (hexact _ rfl).1
        have hlt := number.toNat_lt
        omega
    · intro h
      have hfits : attempt.toNat + (1 : UInt32).toNat < 2 ^ 32 := by omega
      obtain ⟨number, hadd, hnumber⟩ :=
        (addU32_exact_iff mode.overflowChecks).mpr hfits
      refine ⟨some ⟨e, number, UInt64.ofNat delay.asMillis, queuedBatches⟩, ?_, ?_⟩
      · rw [hadd]
        rfl
      · intro w hw
        obtain rfl := Option.some.inj hw
        exact ⟨hnumber, UInt64.toNat_ofNat_of_lt' hdelay⟩
  · refine iff_of_true ⟨none, rfl, ?_⟩ fun h => absurd h hlogs
    intro w hw
    cases hw

/-- The delay is a number of milliseconds that fits, as the ceiling is one. -/
theorem asMillis_retryDelay_lt (ms : UInt64) :
    (retryDelay initial (.fromMillis ms) e attempt).asMillis < 2 ^ 64 := by
  have hle := Duration.asMillis_mono (retryDelay_le initial (.fromMillis ms) e attempt)
  rw [Duration.asMillis_fromMillis] at hle
  exact Nat.lt_of_le_of_lt hle ms.toNat_lt

end Arm

/-- **Only the number in the log can overflow**, and it does once the counter has stopped. -/
theorem Retry.exact_iff (mode : WriterMode) (c : InfluxConfig) (r : Retry) :
    r.Exact mode (pipelineArgs c) ↔
      (mode.logsWarnings = true → r.attempt.toNat < 2 ^ 32 - 1) := by
  have hmillis : (retryDelay (.fromMillis c.retryInitialBackoffMs)
      (.fromMillis c.retryMaxBackoffMs) r.error r.attempt).asMillis < 2 ^ 64 :=
    asMillis_retryDelay_lt _
  rw [← retryWarning_exact_iff mode r.error r.queuedBatches hmillis]
  constructor
  · intro h
    obtain ⟨arm, harm, -, hexact⟩ := h.arm
    obtain ⟨hw, -, hdelay⟩ := retryArm_eq_ok_iff.mp harm
    rw [hdelay] at hexact
    exact ⟨arm.warning, hw, hexact⟩
  · rintro ⟨w, hw, hexact⟩
    refine ⟨checkedShl_attempt r.attempt, fun k _ hmul => lt_of_checkedMul_eq_none hmul _, ?_⟩
    refine ⟨⟨w, saturatingSucc r.attempt, _⟩, retryArm_eq_ok_iff.mpr ⟨hw, rfl, rfl⟩, ?_, hexact⟩
    exact toNat_saturatingSucc r.attempt

namespace Pipeline

variable {F : Type} [F64 F] {args : PipelineArgs} {s t : Pipeline F} {a : PipelineAction F}
  {as : List (PipelineAction F)} {cap : ℕ} {seen : List Retry} {waited : List Wait}

/-! ### The arms of a run -/

/-- The retry arm that a step takes. -/
def retryOf (s : Pipeline F) (a : PipelineAction F) (_ : Pipeline F) : List Retry :=
  match a, s.writer with
  | .answer (.error e) _, .writing batch attempt =>
    if e.isRetryable then [⟨batch, e, attempt, s.sys.queue.len⟩] else []
  | _, _ => []

/-- The retry arms along some actions. -/
def retries (args : PipelineArgs) (s : Pipeline F) (as : List (PipelineAction F)) : List Retry :=
  trace (step args) retryOf s as

/-- How many of the failures are about batch `i`. -/
def failures (seen : List Retry) (i : ℕ) : ℕ := seen.countP fun r => r.batch.ptr = i

theorem failures_append (seen seen' : List Retry) (i : ℕ) :
    failures (seen ++ seen') i = failures seen i + failures seen' i := List.countP_append

theorem failures_singleton (r : Retry) (i : ℕ) :
    failures [r] i = if r.batch.ptr = i then 1 else 0 := by
  rw [failures, List.countP_singleton]
  simp only [decide_eq_true_eq]

theorem failures_le_length (seen : List Retry) (i : ℕ) : failures seen i ≤ seen.length :=
  List.countP_le_length

/-- Where the arm comes to its end, the writer waits with its delay and its counter. -/
theorem writer_of_retryArm {b : Batch} {attempt : UInt32} {e : WriteError} {now : ℕ}
    {mode : WriterMode} {arm : RetryArm} (hw : s.writer = .writing b attempt)
    (he : e.isRetryable = true)
    (harm : retryArm mode args.initialBackoff args.maxBackoff e attempt s.sys.queue.len = .ok arm)
    (h : s.step args (.answer (.error e) now) = some t) :
    t.writer = .backoff b arm.attempt arm.delay := by
  obtain ⟨-, hattempt, hdelay⟩ := retryArm_eq_ok_iff.mp harm
  cases step_to h with
  | rejected b' attempt' e now hw' he' =>
    rw [he] at he'
    cases he'
  | retry b' attempt' e now hw' _ =>
    obtain ⟨rfl, rfl⟩ := WriterPc.writing.inj (hw.symm.trans hw')
    rw [hattempt, hdelay]

/-- A retry arm ends in a wait. -/
theorem map_batch_retryOf (h : s.step args a = some t) :
    (retryOf s a t).map Retry.batch = (waitOf s a t).map Wait.batch := by
  cases step_to h with
  | retry b attempt e now hw he => simp [retryOf, waitOf, hw, he]
  | rejected b attempt e now hw he => simp [retryOf, waitOf, hw, he]
  | recvOk | recvLagged | recvClosed | timer | enqueueEmpty | enqueue | notifyOne | close
  | notifyWaiters | call | wait | retSome | retNone | accepted | pop | sleep | shutdown => rfl

/-! ### The counter -/

/-- The counter is the number of failures of the batch in the loop, until it stops; and in no arm so
far it had stopped, exactly when no batch has failed more often than it can count. -/
structure AttemptsInv (s : Pipeline F) (seen : List Retry) : Prop where
  current : ∀ i attempt, s.attempting = some (i, attempt) →
    attempt.toNat = min (failures seen i) (2 ^ 32 - 1)
  below_iff : (∀ r ∈ seen, r.attempt.toNat < 2 ^ 32 - 1) ↔ ∀ i, failures seen i < 2 ^ 32

omit [F64 F] in
theorem attemptsInv_new : AttemptsInv (new cap : Pipeline F) [] where
  current i attempt h := by simp [attempting, new] at h
  below_iff := by simp [failures]

omit [F64 F] in
/-- A step that takes no arm and leaves the counter alone, if there is one. -/
theorem AttemptsInv.of_attempting (hi : AttemptsInv s seen)
    (h : ∀ i attempt, t.attempting = some (i, attempt) → s.attempting = some (i, attempt)) :
    AttemptsInv t (seen ++ []) := by
  rw [List.append_nil]
  exact ⟨fun i attempt ht => hi.current i attempt (h i attempt ht), hi.below_iff⟩

omit [F64 F] in
/-- A step that takes the arm. -/
theorem AttemptsInv.retry (hi : AttemptsInv s seen) {r : Retry} {delay : Duration}
    (hw : s.writer = .writing r.batch r.attempt)
    (hw' : t.writer = .backoff r.batch (saturatingSucc r.attempt) delay) :
    AttemptsInv t (seen ++ [r]) := by
  have hs : s.attempting = some (r.batch.ptr, r.attempt) := by rw [attempting, hw]
  have ht : t.attempting = some (r.batch.ptr, saturatingSucc r.attempt) := by rw [attempting, hw']
  have hattempt := hi.current _ _ hs
  have hself : failures (seen ++ [r]) r.batch.ptr = failures seen r.batch.ptr + 1 := by
    rw [failures_append, failures_singleton, if_pos rfl]
  refine ⟨fun i attempt hin => ?_, ?_⟩
  · obtain ⟨rfl, rfl⟩ := Prod.mk.inj (Option.some.inj (ht.symm.trans hin))
    have hsucc := toNat_saturatingSucc r.attempt
    omega
  · rw [List.forall_mem_append, List.forall_mem_singleton, hi.below_iff]
    constructor
    · rintro ⟨hseen, hlast⟩ i
      by_cases hptr : r.batch.ptr = i
      · subst hptr
        omega
      · rw [failures_append, failures_singleton, if_neg hptr]
        exact hseen i
    · intro hall
      refine ⟨fun i => ?_, ?_⟩
      · have hlt := hall i
        rw [failures_append] at hlt
        omega
      · have hlt := hall r.batch.ptr
        omega

/-- **One step.** A batch that the writer takes has not failed yet, so the counter begins anew. -/
theorem attemptsInv_step (hinv : t.Inv) (hwaits : WaitsInv args s waited)
    (hbatches : seen.map Retry.batch = waited.map Wait.batch) (hi : AttemptsInv s seen)
    (h : s.step args a = some t) : AttemptsInv t (seen ++ retryOf s a t) := by
  cases step_to h with
  | retry b attempt e now hw he =>
    have hone : ∀ t', retryOf s (.answer (.error e) now) t' =
        [⟨b, e, attempt, s.sys.queue.len⟩] := by
      intro t'
      simp [retryOf, hw, he]
    rw [hone]
    exact hi.retry hw rfl
  | rejected b attempt e now hw he =>
    have hnone : ∀ t', retryOf s (.answer (.error e) now) t' = [] := by
      intro t'
      simp [retryOf, hw, he]
    rw [hnone]
    exact hi.of_attempting (by simp [attempting])
  | retSome b hw hd =>
    refine ⟨fun i attempt hin => ?_, ?_⟩
    · obtain ⟨rfl, rfl⟩ := Prod.mk.inj (Option.some.inj hin)
      have hnone : failures seen b.ptr = 0 := by
        refine List.countP_eq_zero.mpr fun r hr hptr => ?_
        obtain ⟨w, hmem, hbatch⟩ : ∃ w ∈ waited, w.batch = r.batch := by
          rw [← List.mem_map, ← hbatches]
          exact List.mem_map_of_mem hr
        have hlt := hwaits.fresh hinv hw rfl rfl w hmem
        rw [hbatch, of_decide_eq_true hptr] at hlt
        exact Nat.lt_irrefl _ hlt
      show (0 : UInt32).toNat = min (failures (seen ++ []) b.ptr) (2 ^ 32 - 1)
      rw [List.append_nil, hnone]
      rfl
    · show (∀ r ∈ seen ++ [], _) ↔ ∀ i, failures (seen ++ []) i < 2 ^ 32
      rw [List.append_nil]
      exact hi.below_iff
  | accepted | retNone | shutdown | pop => exact hi.of_attempting (by simp [attempting])
  | sleep b attempt delay hw => exact hi.of_attempting (by simp [attempting, hw])
  | recvOk | recvLagged | recvClosed | timer | enqueueEmpty | enqueue | notifyOne | close
  | notifyWaiters | call | wait => exact hi.of_attempting fun _ _ => id

theorem attemptsInv_run (h : FreeRun (step args) (new cap) as s) :
    AttemptsInv s (retries args (new cap) as) := by
  have hboth : AttemptsInv s (retries args (new cap) as) ∧
      (retries args (new cap) as).map Retry.batch = (waits args (new cap) as).map Wait.batch := by
    refine h.trace_invariant (I := fun as s seen => AttemptsInv s seen ∧
      seen.map Retry.batch = (waits args (new cap) as).map Wait.batch) ⟨attemptsInv_new, rfl⟩ ?_
    rintro as t a u seen hrun ⟨hi, hbatches⟩ _ hst
    have hwaits : waits args (new cap) (as ++ [a]) = waits args (new cap) as ++ waitOf t a u :=
      hrun.trace_snoc hst
    have hinv := inv_step (inv_run hrun) hst
    refine ⟨attemptsInv_step hinv (waitsInv_run hrun) hbatches hi hst, ?_⟩
    rw [List.map_append, hbatches, map_batch_retryOf hst, hwaits, List.map_append]
  exact hboth.1

/-- **No arithmetic of the retry arm overflows exactly when no batch fails `2 ^ 32` times, or nobody
hears of it.** -/
theorem retries_exact_iff {F : Type} [F64 F] (mode : WriterMode) (c : InfluxConfig) {cap : ℕ}
    {as : List (PipelineAction F)} {s : Pipeline F}
    (h : FreeRun (step (pipelineArgs c)) (new cap) as s) :
    (∀ r ∈ retries (pipelineArgs c) (new cap) as, r.Exact mode (pipelineArgs c)) ↔
      (mode.logsWarnings = true →
        ∀ i, failures (retries (pipelineArgs c) (new cap) as) i < 2 ^ 32) := by
  rw [← (attemptsInv_run h).below_iff]
  constructor
  · intro hall hlogs r hr
    exact (r.exact_iff mode c).mp (hall r hr) hlogs
  · intro hall r hr
    exact (r.exact_iff mode c).mpr fun hlogs => hall hlogs r hr

/-! ### Failures without end -/

/-- A batch fails with one error after the other, and each wait is slept through. -/
def failing (es : List WriteError) : List (PipelineAction F) :=
  es.flatMap fun e => [.answer (.error e) 0, .sleep]

/-- Any sequence of retryable failures can happen to the batch that is being written. -/
theorem run_failing (args : PipelineArgs) {b : Batch} {attempt : UInt32}
    (hw : s.writer = .writing b attempt) {es : List WriteError}
    (hes : ∀ e ∈ es, e.isRetryable = true) :
    ∃ t, FreeRun (step args) s (failing es) t ∧
      failures (retries args s (failing es)) b.ptr = es.length := by
  induction es generalizing s attempt with
  | nil => exact ⟨s, .nil, rfl⟩
  | cons e es ih =>
    have he : e.isRetryable = true := hes e List.mem_cons_self
    have hrest : ∀ e ∈ es, e.isRetryable = true := fun e hmem => hes e (List.mem_cons_of_mem _ hmem)
    let delay := retryDelay args.initialBackoff args.maxBackoff e attempt
    let s₁ : Pipeline F := { s with writer := .backoff b (saturatingSucc attempt) delay }
    let s₂ : Pipeline F := { s with writer := .writing b (saturatingSucc attempt) }
    have hanswer : s.step args (.answer (.error e) 0) = some s₁ := by
      simp [step, hw, answerStep, he, s₁, delay]
    have hsleep : s₁.step args .sleep = some s₂ := rfl
    have hone : FreeRun (step args) s [.answer (.error e) 0, .sleep] s₂ :=
      (Run.single trivial hanswer).trans (.single trivial hsleep)
    have hseen : retries args s [.answer (.error e) 0, .sleep] =
        [⟨b, e, attempt, s.sys.queue.len⟩] := by
      simp [retries, trace, hanswer, hsleep, retryOf, hw, he]
    obtain ⟨t, hrun, hcount⟩ := ih (s := s₂) rfl hrest
    refine ⟨t, hone.trans hrun, ?_⟩
    have happend : retries args s (failing (e :: es)) =
        retries args s [.answer (.error e) 0, .sleep] ++ retries args s₂ (failing es) :=
      hone.trace_append (failing es)
    rw [happend, failures_append, hseen, failures_singleton, if_pos rfl, hcount, List.length_cons,
      Nat.add_comm]

/-- One result is received and pushed, and the writer takes the batch. -/
def takeOne : List (PipelineAction Decimal) :=
  [.recv (.ok sampleResult), .enqueue, .notifyOne, .call, .wait, .ret]

/-- The answer of a server that is out of order. -/
def outOfOrder : WriteError := .server 503 "" none

/-- A config with which a batch is tried again every millisecond. -/
def hasty : AppConfig Decimal :=
  { oneByOne with influx.retryInitialBackoffMs := 1, influx.retryMaxBackoffMs := 1 }

theorem retries_exact_iff_once :
    ∃ s, FreeRun (step (pipelineArgs hasty.influx)) (new 1024)
        (takeOne ++ failing [outOfOrder]) s ∧
      ∀ r ∈ retries (pipelineArgs hasty.influx) (new 1024) (takeOne ++ failing [outOfOrder]),
        r.Exact ⟨true, true⟩ (pipelineArgs hasty.influx) := by
  obtain ⟨s, hs⟩ : ∃ s, runActions (step (pipelineArgs hasty.influx)) (fun _ _ => True)
      (new 1024) (takeOne ++ failing [outOfOrder]) = some s := ⟨_, rfl⟩
  have hrun := run_of_runActions _ hs
  refine ⟨s, hrun, (retries_exact_iff ⟨true, true⟩ hasty.influx hrun).mpr fun _ i => ?_⟩
  have hlength : (retries (pipelineArgs hasty.influx) (new 1024)
      (takeOne ++ failing [outOfOrder])).length = 1 := rfl
  have hle := failures_le_length (retries (pipelineArgs hasty.influx) (new 1024)
    (takeOne ++ failing [outOfOrder])) i
  rw [hlength] at hle
  exact Nat.lt_of_le_of_lt hle (by decide)

/-- The number of the attempt overflows with the last of `2 ^ 32` failures, in a build with checks
and in one without. -/
theorem attempt_number_overflows :
    hasty.validate = .ok () ∧
    ∃ s, FreeRun (step (pipelineArgs hasty.influx)) (new 1024)
        (takeOne ++ failing (List.replicate (2 ^ 32) outOfOrder)) s ∧
      ∀ overflowChecks, ¬ ∀ r ∈ retries (pipelineArgs hasty.influx) (new 1024)
          (takeOne ++ failing (List.replicate (2 ^ 32) outOfOrder)),
        r.Exact ⟨overflowChecks, true⟩ (pipelineArgs hasty.influx) := by
  refine ⟨by decide, ?_⟩
  obtain ⟨s, hs, hw⟩ : ∃ s, runActions (step (pipelineArgs hasty.influx)) (fun _ _ => True)
      (new 1024) takeOne = some s ∧ s.writer = .writing ⟨0, batchText [sampleResult]⟩ 0 :=
    ⟨_, rfl, rfl⟩
  have htake := run_of_runActions _ hs
  have hfail : ∀ e ∈ List.replicate (2 ^ 32) outOfOrder, e.isRetryable = true := by
    intro e he
    rw [List.eq_of_mem_replicate he]
    rfl
  obtain ⟨t, hrun, hcount⟩ := run_failing (pipelineArgs hasty.influx) hw hfail
  refine ⟨t, htake.trans hrun, fun overflowChecks hall => ?_⟩
  have hi := attemptsInv_run (htake.trans hrun)
  have hbelow := hi.below_iff.mp fun r hr =>
    (r.exact_iff ⟨overflowChecks, true⟩ hasty.influx).mp (hall r hr) rfl
  have hlt := hbelow 0
  have happend : retries (pipelineArgs hasty.influx) (new 1024)
      (takeOne ++ failing (List.replicate (2 ^ 32) outOfOrder)) =
        retries (pipelineArgs hasty.influx) (new 1024) takeOne ++
          retries (pipelineArgs hasty.influx) s
            (failing (List.replicate (2 ^ 32) outOfOrder)) := htake.trace_append _
  rw [List.length_replicate] at hcount
  rw [happend, failures_append, hcount] at hlt
  omega

end Pipeline

end Huginn.Influx
