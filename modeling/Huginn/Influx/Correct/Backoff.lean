import Huginn.Core.Correct.Load
import Huginn.Influx.Correct.Accounting

/-!
# How long the writer waits between two attempts

The backoff doubles with every attempt, up to a ceiling (`nanos_backoffDelay`), and so it is never
shorter than the one before. Nothing is lost to the width of its arithmetic (`backoffDelay_exact`).

`Retry-After` takes its place where the server sends one: it is capped by the same ceiling, but
nothing keeps it above zero. In a run of the pipeline under a valid config the waits keep to
`RetryLaw` exactly when no failure comes with a `Retry-After` of zero (`retryLaw_iff`).
-/

namespace Huginn

theorem nanos_min (a b : Duration) : (a.min b).nanos = min a.nanos b.nanos := by
  rw [Duration.min, Nat.min_def]
  split_ifs with h
  · rfl
  · rfl

/-- A shift within the word is a power of two. -/
theorem checkedShl_one {n : UInt32} (h : n.toNat ≤ 31) :
    ∃ k, checkedShl 1 n = some k ∧ k.toNat = 2 ^ n.toNat := by
  have hlt : n < 32 := UInt32.lt_iff_toNat_lt.mpr (Nat.lt_succ_of_le h)
  refine ⟨1 <<< n, if_pos hlt, ?_⟩
  have hpow : 2 ^ n.toNat < 2 ^ 32 := Nat.pow_lt_pow_right (by decide) (Nat.lt_succ_of_le h)
  rw [UInt32.toNat_shiftLeft, Nat.mod_eq_of_lt (Nat.lt_succ_of_le h), Nat.shiftLeft_eq]
  exact (Nat.mod_eq_of_lt (by simpa using hpow)).trans (Nat.one_mul _)

/-- The counter stops at the largest number. -/
theorem toNat_saturatingSucc (n : UInt32) :
    (saturatingSucc n).toNat = min (n.toNat + 1) (2 ^ 32 - 1) := by
  have hlt := n.toNat_lt
  unfold saturatingSucc
  split_ifs with h
  · have hn : n.toNat = 2 ^ 32 - 1 := by
      rw [h]
      rfl
    omega
  · have hn : n.toNat ≠ 2 ^ 32 - 1 := fun hn => h (UInt32.toNat_inj.mp hn)
    have hone : (1 : UInt32).toNat = 1 := rfl
    rw [UInt32.toNat_add, hone]
    omega

theorem le_toNat_saturatingSucc (n : UInt32) : n.toNat ≤ (saturatingSucc n).toNat := by
  have hlt := n.toNat_lt
  have hsucc := toNat_saturatingSucc n
  omega

theorem Duration.asMillis_fromMillis (ms : UInt64) :
    (Duration.fromMillis ms).asMillis = ms.toNat := by
  show ms.toNat * 1000000 / 1000000 = ms.toNat
  omega

theorem Duration.asMillis_mono {a b : Duration} (h : a.nanos ≤ b.nanos) :
    a.asMillis ≤ b.asMillis :=
  Nat.div_le_div_right h

namespace Influx

/-! ### One delay -/

section Delay

variable {initial max : Duration} {e : WriteError}

/-- The shift is always within the word, and gives a power of two. -/
theorem checkedShl_attempt (attempt : UInt32) :
    ∃ k, checkedShl 1 (if attempt ≤ 31 then attempt else 31) = some k ∧
      k.toNat = 2 ^ min attempt.toNat 31 := by
  have hclamp : (if attempt ≤ 31 then attempt else 31).toNat = min attempt.toNat 31 := by
    rw [Nat.min_def]
    split_ifs with h h' h'
    · rfl
    · exact absurd (UInt32.le_iff_toNat_le.mp h) h'
    · exact absurd (UInt32.le_iff_toNat_le.mpr h') h
    · rfl
  rw [← hclamp]
  refine checkedShl_one ?_
  rw [hclamp]
  exact Nat.min_le_right _ _

/-- A product that is no duration is above every one of them. -/
theorem lt_of_checkedMul_eq_none {d : Duration} {k : UInt32} (h : d.checkedMul k = none)
    (max : Duration) : max.nanos < d.nanos * k.toNat := by
  have hmax := max.nanos_lt
  have hproduct : ¬ d.nanos * k.toNat < 2 ^ 64 * 1000000000 := by
    intro hlt
    rw [Duration.checkedMul, dif_pos hlt] at h
    cases h
  omega

/-- The backoff in closed form. -/
theorem nanos_backoffDelay (initial max : Duration) (attempt : UInt32) :
    (backoffDelay initial max attempt).nanos =
      min (initial.nanos * 2 ^ min attempt.toNat 31) max.nanos := by
  obtain ⟨k, hk, hpow⟩ := checkedShl_attempt attempt
  rw [backoffDelay, hk, nanos_min, Option.getD_some, ← hpow]
  cases hmul : initial.checkedMul k with
  | none =>
    have hlt := lt_of_checkedMul_eq_none hmul max
    rw [Option.getD_none, Nat.min_self, Nat.min_eq_right hlt.le]
  | some d =>
    rw [Duration.checkedMul] at hmul
    split_ifs at hmul
    obtain rfl := Option.some.inj hmul
    rfl

/-- A later backoff is no shorter. -/
theorem backoffDelay_mono {attempt attempt' : UInt32} (h : attempt.toNat ≤ attempt'.toNat) :
    (backoffDelay initial max attempt).nanos ≤ (backoffDelay initial max attempt').nanos := by
  have hexp : min attempt.toNat 31 ≤ min attempt'.toNat 31 := by omega
  have hprod := Nat.mul_le_mul_left initial.nanos (Nat.pow_le_pow_right (n := 2) (by decide) hexp)
  rw [nanos_backoffDelay, nanos_backoffDelay]
  exact Nat.le_min.mpr ⟨(Nat.min_le_left _ _).trans hprod, Nat.min_le_right _ _⟩

theorem backoffDelay_pos (hinitial : 0 < initial.nanos) (hmax : 0 < max.nanos) (attempt : UInt32) :
    0 < (backoffDelay initial max attempt).nanos := by
  rw [nanos_backoffDelay]
  exact Nat.lt_min.mpr ⟨Nat.mul_pos hinitial (Nat.pow_pos (by decide)), hmax⟩

theorem retryDelay_le (initial max : Duration) (e : WriteError) (attempt : UInt32) :
    (retryDelay initial max e attempt).nanos ≤ max.nanos := by
  rw [retryDelay, nanos_min]
  exact Nat.min_le_right _ _

/-- Without `Retry-After` the delay is the backoff. -/
theorem retryDelay_of_none (h : e.retryAfterSecs = none) (attempt : UInt32) :
    (retryDelay initial max e attempt).nanos = (backoffDelay initial max attempt).nanos := by
  rw [retryDelay, nanos_min, h, Option.map_none, Option.getD_none, nanos_backoffDelay]
  exact Nat.min_eq_left (Nat.min_le_right _ _)

/-- The delay is positive unless the server asks for none. -/
theorem retryDelay_pos_iff (hinitial : 0 < initial.nanos) (hmax : 0 < max.nanos)
    (attempt : UInt32) :
    0 < (retryDelay initial max e attempt).nanos ↔ e.retryAfterSecs ≠ some 0 := by
  cases h : e.retryAfterSecs with
  | none =>
    rw [retryDelay_of_none h]
    exact iff_of_true (backoffDelay_pos hinitial hmax attempt) (by simp)
  | some secs =>
    have hsecs : 0 < secs.toNat ↔ secs ≠ 0 := by
      rw [Nat.pos_iff_ne_zero]
      exact not_congr (UInt64.toNat_inj (b := 0))
    rw [retryDelay, nanos_min, h, Option.map_some, Option.getD_some, Ne,
      Option.some.injEq, ← Ne, ← hsecs]
    show 0 < min (secs.toNat * 1000000000) max.nanos ↔ _
    rw [Nat.lt_min]
    constructor
    · exact fun hpos => Nat.pos_of_mul_pos_right hpos.1
    · exact fun hpos => ⟨Nat.mul_pos hpos (by decide), hmax⟩

/-- What `backoff_delay` computes: no step of its arithmetic falls back, but for a product that is
above the ceiling anyway. -/
structure BackoffExact (initial max : Duration) : Prop where
  shift : ∀ attempt : UInt32, checkedShl 1 (if attempt ≤ 31 then attempt else 31) ≠ none
  mul : ∀ (attempt : UInt32) (k : UInt32),
    checkedShl 1 (if attempt ≤ 31 then attempt else 31) = some k → initial.checkedMul k = none →
      max.nanos < initial.nanos * 2 ^ min attempt.toNat 31
  eq_pow : ∀ attempt : UInt32, attempt.toNat ≤ 31 →
    (backoffDelay initial max attempt).nanos = min (initial.nanos * 2 ^ attempt.toNat) max.nanos
  eq_last : ∀ attempt : UInt32, 31 ≤ attempt.toNat →
    backoffDelay initial max attempt = backoffDelay initial max 31
  initial_le : ∀ attempt, initial.nanos ≤ (backoffDelay initial max attempt).nanos
  le_max : ∀ attempt, (backoffDelay initial max attempt).nanos ≤ max.nanos
  mono : ∀ attempt attempt' : UInt32, attempt ≤ attempt' →
    (backoffDelay initial max attempt).nanos ≤ (backoffDelay initial max attempt').nanos

/-- **The backoff is the capped exponential, exactly**, in spite of the width of its arithmetic. -/
theorem backoffDelay_exact {initial max : Duration} (hle : initial.nanos ≤ max.nanos) :
    BackoffExact initial max where
  shift attempt := by
    obtain ⟨k, hk, -⟩ := checkedShl_attempt attempt
    rw [hk]
    exact Option.some_ne_none k
  mul attempt k hk hmul := by
    obtain ⟨k', hk', hpow⟩ := checkedShl_attempt attempt
    obtain rfl := Option.some.inj (hk.symm.trans hk')
    rw [← hpow]
    exact lt_of_checkedMul_eq_none hmul max
  eq_pow attempt h31 := by
    rw [nanos_backoffDelay, Nat.min_eq_left h31]
  eq_last attempt h31 := by
    have hlast : (31 : UInt32).toNat = 31 := rfl
    refine Duration.ext ?_
    rw [nanos_backoffDelay, nanos_backoffDelay, hlast, Nat.min_eq_right h31, Nat.min_self]
  initial_le attempt := by
    have hpow : 0 < 2 ^ min attempt.toNat 31 := Nat.pow_pos (by decide)
    rw [nanos_backoffDelay]
    exact Nat.le_min.mpr ⟨Nat.le_mul_of_pos_right _ hpow, hle⟩
  le_max attempt := by
    rw [nanos_backoffDelay]
    exact Nat.min_le_right _ _
  mono attempt attempt' h := backoffDelay_mono (UInt32.le_iff_toNat_le.mp h)

theorem backoffDelay_exact_halfSecond :
    BackoffExact (.fromMillis 500) (.fromMillis 30000) :=
  backoffDelay_exact (by decide)

end Delay

/-! ### The delays of a run -/

/-- The arguments that `run` passes on from the config. -/
def pipelineArgs (c : InfluxConfig) : PipelineArgs :=
  ⟨c.batchSize.toNat, .fromMillis c.retryInitialBackoffMs, .fromMillis c.retryMaxBackoffMs⟩

/-- A wait between two attempts: the batch, the failure before it, and how long it is. -/
structure Wait where
  batch : Batch
  error : WriteError
  delay : Duration

/-- What the writer promises about its waits: it never tries again at once, it never waits longer
than the ceiling, and for one batch the waits after failures without `Retry-After` never get
shorter. -/
structure RetryLaw (c : InfluxConfig) (waits : List Wait) : Prop where
  pos : ∀ w ∈ waits, 0 < w.delay.nanos
  le_max : ∀ w ∈ waits, w.delay.nanos ≤ (Duration.fromMillis c.retryMaxBackoffMs).nanos
  mono : waits.Pairwise fun w w' => w.batch.ptr = w'.batch.ptr → w.error.retryAfterSecs = none →
    w'.error.retryAfterSecs = none → w.delay.nanos ≤ w'.delay.nanos

namespace Pipeline

variable {F : Type} [F64 F] {args : PipelineArgs} {s t : Pipeline F} {a : PipelineAction F}
  {as : List (PipelineAction F)} {cap : ℕ} {seen : List Wait}

/-- The wait that a step begins. -/
def waitOf (_ : Pipeline F) (a : PipelineAction F) (t : Pipeline F) : List Wait :=
  match a with
  | .answer (.error e) _ =>
    match t.writer with
    | .backoff batch _ delay => [⟨batch, e, delay⟩]
    | .waiting | .writing _ _ | .answered _ | .returned => []
  | _ => []

/-- The waits along some actions. -/
def waits (args : PipelineArgs) (s : Pipeline F) (as : List (PipelineAction F)) : List Wait :=
  trace (step args) waitOf s as

/-- The batch in the retry loop, by number, and the attempt that is made or comes next. -/
def attempting (s : Pipeline F) : Option (ℕ × UInt32) :=
  match s.writer with
  | .writing batch attempt => some (batch.ptr, attempt)
  | .backoff batch attempt _ => some (batch.ptr, attempt)
  | .waiting | .answered _ | .returned => none

/-- The waits so far, as the retry loop goes on. -/
structure WaitsInv (args : PipelineArgs) (s : Pipeline F) (seen : List Wait) : Prop where
  delays : ∀ w ∈ seen, ∃ attempt,
    w.delay = retryDelay args.initialBackoff args.maxBackoff w.error attempt
  /-- A batch that was waited for is the one in the loop, or has its final answer. -/
  past : s.writer ≠ .returned → ∀ w ∈ seen,
    w.batch.ptr ∈ s.answered ∨ s.attempting.map Prod.fst = some w.batch.ptr
  current : ∀ i attempt, s.attempting = some (i, attempt) → ∀ w ∈ seen, w.batch.ptr = i →
    w.error.retryAfterSecs = none →
      w.delay.nanos ≤ (backoffDelay args.initialBackoff args.maxBackoff attempt).nanos
  mono : seen.Pairwise fun w w' => w.batch.ptr = w'.batch.ptr → w.error.retryAfterSecs = none →
    w'.error.retryAfterSecs = none → w.delay.nanos ≤ w'.delay.nanos

omit [F64 F] in
theorem waitsInv_new : WaitsInv args (new cap : Pipeline F) [] where
  delays := by simp
  past := by simp
  current := by simp
  mono := .nil

omit [F64 F] in
/-- A step that leaves the retry loop and the final answers alone. -/
theorem WaitsInv.of_eq (hi : WaitsInv args s seen) (hwriter : s.writer = .returned →
      t.writer = .returned) (hanswered : t.answered = s.answered)
    (hattempting : t.attempting = s.attempting) : WaitsInv args t seen where
  delays := hi.delays
  past hne w hw := by
    rw [hanswered, hattempting]
    exact hi.past (fun h => hne (hwriter h)) w hw
  current := by
    rw [hattempting]
    exact hi.current
  mono := hi.mono

omit [F64 F] in
/-- A step that ends the loop with a final answer. -/
theorem WaitsInv.answered (hi : WaitsInv args s seen) {b : Batch} {attempt : UInt32}
    (hw : s.writer = .writing b attempt) (hw' : t.writer = .answered b)
    (hanswered : t.answered = s.answered ++ [b.ptr]) : WaitsInv args t seen where
  delays := hi.delays
  past _ w hmem := by
    have hrunning : s.writer ≠ .returned := by simp [hw]
    have hpast := hi.past hrunning w hmem
    simp only [attempting, hw, Option.map_some, Option.some.injEq] at hpast
    rw [hanswered, List.mem_append, List.mem_singleton]
    exact .inl (hpast.imp_right Eq.symm)
  current i n h := by
    simp [attempting, hw'] at h
  mono := hi.mono

omit [F64 F] in
/-- A step that adds a wait to the loop. -/
theorem WaitsInv.retry (hi : WaitsInv args s seen) {b : Batch} {attempt : UInt32} {e : WriteError}
    (hw : s.writer = .writing b attempt) {delay : Duration}
    (hdelay : delay = retryDelay args.initialBackoff args.maxBackoff e attempt)
    (hw' : t.writer = .backoff b (saturatingSucc attempt) delay)
    (hanswered : t.answered = s.answered) : WaitsInv args t (seen ++ [⟨b, e, delay⟩]) := by
  have hrunning : s.writer ≠ .returned := by simp [hw]
  have hs : s.attempting = some (b.ptr, attempt) := by rw [attempting, hw]
  have ht : t.attempting = some (b.ptr, saturatingSucc attempt) := by rw [attempting, hw']
  refine ⟨fun w hmem => ?_, fun _ w hmem => ?_, fun i n hin w hmem hptr hnone => ?_, ?_⟩
  · rcases List.mem_append.mp hmem with hmem | hmem
    · exact hi.delays w hmem
    · obtain rfl := List.mem_singleton.mp hmem
      exact ⟨attempt, hdelay⟩
  · rw [hanswered, ht]
    rcases List.mem_append.mp hmem with hmem | hmem
    · have hpast := hi.past hrunning w hmem
      rwa [hs] at hpast
    · obtain rfl := List.mem_singleton.mp hmem
      exact .inr rfl
  · -- the next backoff is no shorter than this one
    obtain ⟨rfl, rfl⟩ := Prod.mk.inj (Option.some.inj (ht.symm.trans hin))
    refine le_trans ?_ (backoffDelay_mono (le_toNat_saturatingSucc attempt))
    rcases List.mem_append.mp hmem with hmem | hmem
    · exact hi.current _ _ hs w hmem hptr hnone
    · obtain rfl := List.mem_singleton.mp hmem
      rw [hdelay, retryDelay_of_none hnone]
  · refine List.pairwise_append.mpr ⟨hi.mono, List.pairwise_singleton _ _, ?_⟩
    intro w hmem w' hmem' hptr hnone hnone'
    obtain rfl := List.mem_singleton.mp hmem'
    rw [hdelay, retryDelay_of_none hnone']
    exact hi.current _ _ hs w hmem hptr hnone

omit [F64 F] in
/-- A step that begins no wait. -/
theorem WaitsInv.append_nil (hi : WaitsInv args s seen) : WaitsInv args s (seen ++ []) := by
  rwa [List.append_nil]

omit [F64 F] in
/-- Between two batches, those that were waited for have their final answers. -/
theorem WaitsInv.mem_answered (hi : WaitsInv args s seen) (hw : s.writer = .waiting) :
    ∀ w ∈ seen, w.batch.ptr ∈ s.answered := by
  intro w hmem
  have hrunning : s.writer ≠ .returned := by simp [hw]
  simpa [attempting, hw] using hi.past hrunning w hmem

omit [F64 F] in
/-- A batch that the writer takes has not been waited for. -/
theorem WaitsInv.fresh (hi : WaitsInv args s seen) (hinv : t.Inv) {b : Batch}
    (hw : s.writer = .waiting) (hw' : t.writer = .writing b 0)
    (hanswered : t.answered = s.answered) : ∀ w ∈ seen, w.batch.ptr < b.ptr := by
  intro w hmem
  have hbefore := (writing_facts hinv hw').2.2
  rw [hanswered] at hbefore
  exact hbefore _ (hi.mem_answered hw w hmem)

/-- **One step.** A batch that the writer takes has no final answer yet, so its waits begin anew. -/
theorem waitsInv_step (hinv : t.Inv) (hi : WaitsInv args s seen) (h : s.step args a = some t) :
    WaitsInv args t (seen ++ waitOf s a t) := by
  cases step_to h with
  | retry b attempt e now hw he => exact hi.retry hw rfl rfl rfl
  | accepted b attempt now hw => exact WaitsInv.append_nil (hi.answered hw rfl List.map_append)
  | rejected b attempt e now hw he => exact WaitsInv.append_nil (hi.answered hw rfl List.map_append)
  | retSome b hw hd =>
    have hpast := hi.mem_answered hw
    have hfresh := hi.fresh hinv hw rfl rfl
    refine WaitsInv.append_nil
      ⟨hi.delays, fun _ w hmem => .inl (hpast w hmem), fun i n hin w hmem hptr => ?_, hi.mono⟩
    obtain ⟨rfl, -⟩ := Prod.mk.inj (Option.some.inj hin)
    have hlt := hfresh w hmem
    omega
  | retNone hw hd =>
    exact WaitsInv.append_nil
      ⟨hi.delays, fun hne => absurd rfl hne, by simp [attempting], hi.mono⟩
  | shutdown b attempt delay hw =>
    exact WaitsInv.append_nil
      ⟨hi.delays, fun hne => absurd rfl hne, by simp [attempting], hi.mono⟩
  | pop b hw hidle =>
    have hrunning : s.writer ≠ .returned := by simp [hw]
    have hattempting : s.attempting = none := by rw [attempting, hw]
    exact WaitsInv.append_nil (hi.of_eq (fun h => absurd h hrunning) rfl hattempting.symm)
  | sleep b attempt delay hw =>
    have hrunning : s.writer ≠ .returned := by simp [hw]
    have hattempting : s.attempting = some (b.ptr, attempt) := by rw [attempting, hw]
    exact WaitsInv.append_nil (hi.of_eq (fun h => absurd h hrunning) rfl hattempting.symm)
  | recvOk | recvLagged | recvClosed | timer | enqueueEmpty | enqueue | notifyOne | close
  | notifyWaiters | call | wait => exact WaitsInv.append_nil (hi.of_eq id rfl rfl)

theorem waitsInv_run (h : FreeRun (step args) (new cap) as s) :
    WaitsInv args s (waits args (new cap) as) :=
  h.trace_invariant (I := fun _ s seen => WaitsInv args s seen) waitsInv_new
    fun _ _ _ _ _ hrun hi _ hst => waitsInv_step (inv_step (inv_run hrun) hst) hi hst

/-- The failures along some actions that are retried. -/
def retried (as : List (PipelineAction F)) : List WriteError :=
  as.filterMap fun
    | .answer (.error e) _ => if e.isRetryable then some e else none
    | _ => none

/-- There is one wait for every failure that is retried. -/
theorem errors_waits (h : FreeRun (step args) s as t) :
    (waits args s as).map Wait.error = retried as := by
  refine h.trace_invariant (I := fun as _ seen => seen.map Wait.error = retried as) rfl ?_
  intro as t a u seen _ ih _ hst
  have happ : retried (as ++ [a]) = retried as ++ retried [a] := List.filterMap_append
  rw [List.map_append, ih, happ]
  congr 1
  cases step_to hst with
  | retry b attempt e now hw he => simp [waitOf, retried, he]
  | rejected b attempt e now hw he => simp [waitOf, retried, he]
  | recvOk | recvLagged | recvClosed | timer | enqueueEmpty | enqueue | notifyOne | close
  | notifyWaiters | call | wait | retSome | retNone | accepted | pop | sleep | shutdown => rfl

/-- **The writer keeps to its law exactly when no server asks it to try again at once.** -/
theorem retryLaw_iff {F : Type} [F64 F] {cfg : AppConfig F} (hvalid : cfg.validate = .ok ())
    {cap : ℕ} {as : List (PipelineAction F)} {s : Pipeline F}
    (h : FreeRun (step (pipelineArgs cfg.influx)) (new cap) as s) :
    RetryLaw cfg.influx (waits (pipelineArgs cfg.influx) (new cap) as) ↔
      ∀ e ∈ retried as, e.retryAfterSecs ≠ some 0 := by
  have hinflux := ((AppConfig.validate_eq_ok_iff cfg).mp hvalid).influx
  have hpos : ∀ ms : UInt64, ms ≠ 0 → 0 < (Duration.fromMillis ms).nanos := by
    intro ms hne
    have hms : ms.toNat ≠ 0 := fun h0 => hne (UInt64.toNat_inj.mp h0)
    exact Nat.mul_pos (Nat.pos_of_ne_zero hms) (by decide)
  have hinitial := hpos _ hinflux.retryInitialBackoffMs_ne
  have hmax := hpos _ hinflux.retryMaxBackoffMs_ne
  have hi := waitsInv_run h
  have hone : ∀ w ∈ waits (pipelineArgs cfg.influx) (new cap) as,
      0 < w.delay.nanos ↔ w.error.retryAfterSecs ≠ some 0 := by
    intro w hw
    obtain ⟨attempt, hdelay⟩ := hi.delays w hw
    rw [hdelay]
    exact retryDelay_pos_iff hinitial hmax attempt
  rw [← errors_waits h, List.forall_mem_map]
  constructor
  · exact fun hlaw w hw => (hone w hw).mp (hlaw.pos w hw)
  · intro hall
    refine ⟨fun w hw => (hone w hw).mpr (hall w hw), fun w hw => ?_, hi.mono⟩
    obtain ⟨attempt, hdelay⟩ := hi.delays w hw
    rw [hdelay]
    exact retryDelay_le _ _ _ _

/-- A config with nothing but what its `influx` section needs, and batches of one result. -/
def oneByOne : AppConfig Decimal :=
  .ofInflux { InfluxConfig.default with
    url := "http://influxdb:8086", org := "org", bucket := "bucket", batchSize := 1 } []

/-- A server that is out of order. -/
def unavailable (retryAfter : Option String) : PipelineAction Decimal :=
  .answer (classify ⟨503, retryAfter, none, some ""⟩) 0

/-- One result is received, pushed, and refused for the time being. -/
def refuseOne (retryAfter : Option String) : List (PipelineAction Decimal) :=
  [.recv (.ok sampleResult), .enqueue, .notifyOne, .call, .wait, .ret, unavailable retryAfter]

theorem retryLaw_iff_twoMinutes :
    ∃ s, FreeRun (step (pipelineArgs oneByOne.influx)) (new 1024)
        (refuseOne none ++ [.sleep, unavailable (some "120")]) s ∧
      RetryLaw oneByOne.influx (waits (pipelineArgs oneByOne.influx) (new 1024)
        (refuseOne none ++ [.sleep, unavailable (some "120")])) := by
  obtain ⟨s, hs⟩ : ∃ s, runActions (step (pipelineArgs oneByOne.influx)) (fun _ _ => True)
      (new 1024) (refuseOne none ++ [.sleep, unavailable (some "120")]) = some s := ⟨_, rfl⟩
  have hrun := run_of_runActions _ hs
  exact ⟨s, hrun, (retryLaw_iff (by decide) hrun).mpr (by decide)⟩

/-- A `Retry-After` of zero is slept for no time at all. -/
theorem retryAfter_zero_does_not_wait :
    oneByOne.validate = .ok () ∧
      ∃ s, FreeRun (step (pipelineArgs oneByOne.influx)) (new 1024) (refuseOne (some "0")) s ∧
        ¬ RetryLaw oneByOne.influx
          (waits (pipelineArgs oneByOne.influx) (new 1024) (refuseOne (some "0"))) := by
  refine ⟨by decide, ?_⟩
  obtain ⟨s, hs⟩ : ∃ s, runActions (step (pipelineArgs oneByOne.influx)) (fun _ _ => True)
      (new 1024) (refuseOne (some "0")) = some s := ⟨_, rfl⟩
  refine ⟨s, run_of_runActions _ hs, fun hlaw => ?_⟩
  have hwait : ⟨⟨0, batchText [sampleResult]⟩, .server 503 "" (some 0), .fromSecs 0⟩ ∈
      waits (pipelineArgs oneByOne.influx) (new 1024) (refuseOne (some "0")) :=
    List.mem_singleton.mpr rfl
  exact absurd (hlaw.pos _ hwait) (by decide)

end Pipeline

end Influx

end Huginn
