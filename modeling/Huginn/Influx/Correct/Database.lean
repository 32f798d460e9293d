import Huginn.Influx.Correct.Framing
import Huginn.Influx.Correct.Pipeline
import Huginn.Influx.Database
import Huginn.Lib.Redelivery
import Huginn.Probes.Correct.Deadline

/-!
# Retries do no harm

The writer cannot know what became of a request that it got no answer to, and makes it again. What
the database has in the end is what it would have if each of the batches delivered had been
delivered once, in the order in which they were queued (`Backend.exactly_once`). This needs the
order: a request that is stored after the writer has given up on it can overwrite what came later,
but for the results of different times (`Backend.reads_back`).
-/

namespace Huginn.Influx

open Probes

/-! ### What the writer holds -/

namespace Pipeline

variable {F : Type} [F64 F] {args : PipelineArgs} {s t : Pipeline F} {a : PipelineAction F}
  {as : List (PipelineAction F)} {cap : ℕ}

/-- The batch that the writer has taken from the queue. -/
def taken (s : Pipeline F) : Option Batch :=
  match s.writer with
  | .waiting =>
    match s.sys.wait with
    | .done batch => batch
    | _ => none
  | .writing batch _ | .backoff batch _ _ | .answered batch => some batch
  | .returned => none

omit [F64 F] in
theorem taken_of_sending {b : Batch} (h : Backend.sending s = some b) : s.taken = some b := by
  unfold Backend.sending at h
  unfold taken
  cases hw : s.writer with
  | writing b' attempt =>
    rw [hw] at h
    exact h
  | waiting | answered | backoff | returned =>
    rw [hw] at h
    cases h

/-- What the writer takes is the front of the queue. -/
theorem taken_step (hq : s.QueueInv) (h : s.step args a = some t) :
    ∀ b ∈ t.taken, b ∈ s.taken ∨ (b ∈ s.sys.queue.inner.batches ∧ b.ptr = s.front) := by
  intro b hb
  cases step_to h with
  | wait sys hw hto =>
    cases hto with
    | found b' hpc hpeek =>
      simp only [taken, hw] at hb
      obtain rfl := Option.some.inj hb
      obtain ⟨bs, hbs⟩ : ∃ bs, s.sys.queue.inner.batches = b' :: bs :=
        List.head?_eq_some_iff.mp hpeek
      exact .inr ⟨hbs ▸ List.mem_cons_self, hq.head hbs⟩
    | none =>
      simp only [taken, hw] at hb
      cases hb
    | empty | «open» | created | emptyAgain | openAgain | ready | asleep | resumed =>
      simp only [taken, hw] at hb
      cases hb
  | retSome b' hw hd =>
    left
    simp only [taken, hw, hd]
    exact hb
  | accepted b' attempt now hw | rejected b' attempt e now hw he | retry b' attempt e now hw he
  | sleep b' attempt delay hw =>
    left
    simp only [taken, hw]
    exact hb
  | call hw hidle =>
    simp only [taken, hw] at hb
    cases hb
  | pop b' hw hidle =>
    simp only [taken, hidle] at hb
    cases hb
  | retNone | shutdown => cases hb
  | recvOk | recvLagged | recvClosed | timer | enqueueEmpty | enqueue | notifyOne | close
  | notifyWaiters => exact .inl hb

/-- The front of the queue only moves on. -/
theorem front_le_step (hi : s.Inv) (h : s.step args a = some t) : s.front ≤ t.front := by
  have hledger : s.ledger.front ≤ t.ledger.front := by
    rcases ledger_step hi.queue hi.ledger h with heq | ⟨b, hb⟩
    · rw [heq]
    · exact Ledger.front_le_step hb
  exact hledger

theorem pushed_grows (h : s.step args a = some t) : s.pushed <+: t.pushed := by
  cases step_to h with
  | enqueue => exact List.prefix_append _ _
  | recvOk | recvLagged | recvClosed | timer | enqueueEmpty | notifyOne | close | notifyWaiters
  | call | wait | retSome | retNone | accepted | rejected | retry | pop | sleep | shutdown =>
    exact List.prefix_rfl

/-- A final answer is about the request under way, and it is an acceptance if that succeeded. -/
theorem finals_step (h : s.step args a = some t) : ∀ f ∈ t.finals, f ∈ s.finals ∨
    (Backend.sending s = some f.1 ∧ (f.2 = .accepted → ∃ now, a = .answer (.ok ()) now)) := by
  intro f hf
  cases step_to h with
  | accepted b attempt now hw =>
    rcases List.mem_append.mp hf with hold | hnew
    · exact .inl hold
    · obtain rfl := List.mem_singleton.mp hnew
      exact .inr ⟨by simp only [Backend.sending, hw], fun _ => ⟨now, rfl⟩⟩
  | rejected b attempt e now hw he =>
    rcases List.mem_append.mp hf with hold | hnew
    · exact .inl hold
    · obtain rfl := List.mem_singleton.mp hnew
      exact .inr ⟨by simp only [Backend.sending, hw], fun hv => by cases hv⟩
  | recvOk | recvLagged | recvClosed | timer | enqueueEmpty | enqueue | notifyOne | close
  | notifyWaiters | call | wait | retSome | retNone | retry | pop | sleep | shutdown =>
    exact .inl hf

omit [F64 F] in
/-- The batches pushed, by number. -/
theorem pairwise_pushed (hq : s.QueueInv) :
    (s.pushed.map Pushed.batch).Pairwise (fun b c => b.ptr < c.ptr) := by
  have hrange : (s.pushed.map fun p => p.batch.ptr).Pairwise (· < ·) := by
    rw [hq.numbered]
    exact List.pairwise_lt_range
  rw [List.pairwise_map] at hrange ⊢
  exact hrange

end Pipeline

namespace Backend

variable {F : Type} [F64 F] {args : PipelineArgs} {s t : Backend F} {a : BackendAction F}
  {as : List (BackendAction F)} {cap : ℕ} {ok : Backend F → BackendAction F → Prop}

/-! ### What a step does -/

/-- What a step can do, by where it was taken. -/
inductive StepTo (args : PipelineArgs) (s : Backend F) : BackendAction F → Backend F → Prop
  | pipe (a : PipelineAction F) (pipe : Pipeline F) (hst : s.pipe.step args a = some pipe) :
      StepTo args s (.pipe a) { s with pipe := pipe, sent := s.sent ++ (sending pipe).toList }
  | store (batch : Batch) (points : List Point) (hsent : batch ∈ s.sent)
      (hpoints : points.Sublist (batchPoints batch)) :
      StepTo args s (.store batch points) { s with
        db := s.db.write (points.flatMap Point.cells)
        stored := s.stored ++ [(batch, points)] }

/-- **The step lemma.** -/
theorem step_to (h : s.step args a = some t) : StepTo args s a t := by
  cases a with
  | pipe a =>
    obtain ⟨pipe, hst, rfl⟩ := Option.map_eq_some_iff.mp h
    exact .pipe a pipe hst
  | store batch points =>
    simp only [step, Option.ite_none_right_eq_some, Option.some.injEq] at h
    obtain ⟨⟨hsent, hpoints⟩, rfl⟩ := h
    exact .store batch points hsent hpoints

/-! ### The invariant -/

/-- The values stored, in order. -/
def log (s : Backend F) : List (Cell × FieldValue) :=
  s.stored.flatMap fun e => e.2.flatMap Point.cells

/-- A batch that was pushed. -/
def Known (s : Backend F) (b : Batch) : Prop := b ∈ s.pipe.pushed.map Pushed.batch

/-- What holds in every state: the writer has, and the database was sent, only what was pushed; and
the database has the last value stored in each place. -/
structure Inv (s : Backend F) : Prop where
  pipe : s.pipe.Inv
  taken : ∀ b ∈ s.pipe.taken, s.Known b
  finals : ∀ f ∈ s.pipe.finals, s.Known f.1
  sent : ∀ b ∈ s.sent, s.Known b
  stored : ∀ e ∈ s.stored, e.1 ∈ s.sent ∧ e.2.Sublist (batchPoints e.1)
  db : ∀ cell, s.db.get cell = (lastTo Prod.fst s.log cell).map Prod.snd

/-- What is written last is read. -/
theorem get_write (db : Database) (values : List (Cell × FieldValue)) (cell : Cell) :
    (db.write values).get cell = ((lastTo Prod.fst values cell).map Prod.snd).or (db.get cell) := by
  unfold Database.write
  induction values using List.reverseRecOn with
  | nil => rfl
  | append_singleton values e ih =>
    rw [List.foldl_concat, HashMap.get_insert, lastTo_concat]
    by_cases h : cell = e.1
    · subst h
      rw [Function.update_self, Function.update_self]
      rfl
    · rw [Function.update_of_ne h, Function.update_of_ne h, ih]

omit [F64 F] in
theorem inv_new : Inv (new cap : Backend F) where
  pipe := Pipeline.inv_new
  taken _ h := nomatch h
  finals _ h := nomatch h
  sent _ h := nomatch h
  stored _ h := nomatch h
  db _ := rfl

theorem inv_step (hi : s.Inv) (h : s.step args a = some t) : t.Inv := by
  cases step_to h with
  | pipe a pipe hst =>
    have hgrows : ∀ b, s.Known b → b ∈ pipe.pushed.map Pushed.batch := fun b hb =>
      ((Pipeline.pushed_grows hst).map Pushed.batch).subset hb
    have htaken : ∀ b ∈ pipe.taken, b ∈ pipe.pushed.map Pushed.batch := by
      intro b hb
      rcases Pipeline.taken_step hi.pipe.queue hst b hb with hold | ⟨hqueued, -⟩
      · exact hgrows b (hi.taken b hold)
      · exact hgrows b (hi.pipe.queue.contents.subset hqueued)
    refine ⟨Pipeline.inv_step hi.pipe hst, htaken, ?_, ?_, ?_, hi.db⟩
    · intro f hf
      rcases Pipeline.finals_step hst f hf with hold | ⟨hsending, -⟩
      · exact hgrows f.1 (hi.finals f hold)
      · exact hgrows f.1 (hi.taken f.1 (Pipeline.taken_of_sending hsending))
    · intro b hb
      rcases List.mem_append.mp hb with hold | hnew
      · exact hgrows b (hi.sent b hold)
      · exact htaken b (Pipeline.taken_of_sending (Option.mem_toList.mp hnew))
    · intro e he
      obtain ⟨hsent, hpoints⟩ := hi.stored e he
      exact ⟨List.mem_append_left _ hsent, hpoints⟩
  | store batch points hsent hpoints =>
    refine ⟨hi.pipe, hi.taken, hi.finals, hi.sent, ?_, ?_⟩
    · intro e he
      rcases List.mem_append.mp he with hold | hnew
      · exact hi.stored e hold
      · rw [List.mem_singleton.mp hnew]
        exact ⟨hsent, hpoints⟩
    · intro cell
      have hlog : log { s with
          db := s.db.write (points.flatMap Point.cells)
          stored := s.stored ++ [(batch, points)] } = s.log ++ points.flatMap Point.cells := by
        simp only [log, List.flatMap_append, List.flatMap_singleton]
      rw [hlog, get_write, lastTo_append, hi.db cell]
      cases lastTo Prod.fst (points.flatMap Point.cells) cell
      all_goals rfl

theorem inv_run (h : Run (step args) ok (new cap) as s) : s.Inv :=
  h.invariant inv_new fun _ _ _ hi _ hst => inv_step hi hst

/-! ### In order -/

/-- The requests were stored in the order of their batches, and as a whole. -/
structure OrderInv (s : Backend F) : Prop where
  sorted : s.stored.Pairwise (fun d e => d.1.ptr ≤ e.1.ptr)
  front : ∀ e ∈ s.stored, e.1.ptr ≤ s.pipe.front
  taken : ∀ b ∈ s.pipe.taken, ∀ e ∈ s.stored, e.1.ptr ≤ b.ptr
  whole : ∀ e ∈ s.stored, e.2 = batchPoints e.1

omit [F64 F] in
theorem orderInv_new : OrderInv (new cap : Backend F) where
  sorted := .nil
  front _ h := nomatch h
  taken _ h := nomatch h
  whole _ h := nomatch h

omit [F64 F] in
/-- The batch under way is at most at the front of the queue. -/
theorem ptr_le_front (hi : s.pipe.Inv) {b : Batch} (h : sending s.pipe = some b) :
    b.ptr ≤ s.pipe.front := by
  unfold sending at h
  split at h
  · next b' attempt hw =>
    obtain rfl := Option.some.inj h
    have hok := hi.ledger.hold_ok
    have hhold : s.pipe.ledger.hold = .taken b'.ptr := by
      simp only [Pipeline.ledger, Pipeline.hold, hw]
    rw [Ledger.HoldOk, hhold] at hok
    exact hok.1
  all_goals cases h

theorem orderInv_step (hi : s.Inv) (ho : s.OrderInv) (hok : s.InTime a)
    (h : s.step args a = some t) : t.OrderInv := by
  cases step_to h with
  | pipe a pipe hst =>
    refine ⟨ho.sorted, ?_, ?_, ho.whole⟩
    · intro e he
      have hfront : s.pipe.front ≤ pipe.front := Pipeline.front_le_step hi.pipe hst
      exact (ho.front e he).trans hfront
    · intro b hb e he
      rcases Pipeline.taken_step hi.pipe.queue hst b hb with hold | ⟨-, hptr⟩
      · exact ho.taken b hold e he
      · rw [hptr]
        exact ho.front e he
  | store batch points hsent hpoints =>
    obtain ⟨hsending, hwhole⟩ : sending s.pipe = some batch ∧ points = batchPoints batch := hok
    have htaken : s.pipe.taken = some batch := Pipeline.taken_of_sending hsending
    refine ⟨?_, ?_, ?_, ?_⟩
    · rw [List.pairwise_append]
      refine ⟨ho.sorted, List.pairwise_singleton _ _, ?_⟩
      intro d hd e he
      rw [List.mem_singleton.mp he]
      exact ho.taken batch htaken d hd
    · intro e he
      rcases List.mem_append.mp he with hold | hnew
      · exact ho.front e hold
      · rw [List.mem_singleton.mp hnew]
        exact ptr_le_front hi.pipe hsending
    · intro b hb e he
      obtain rfl : batch = b := Option.some.inj (htaken.symm.trans hb)
      rcases List.mem_append.mp he with hold | hnew
      · exact ho.taken batch htaken e hold
      · rw [List.mem_singleton.mp hnew]
    · intro e he
      rcases List.mem_append.mp he with hold | hnew
      · exact ho.whole e hold
      · rw [List.mem_singleton.mp hnew]
        exact hwhole

/-- What a batch writes. -/
def batchValues (b : Batch) : List (Cell × FieldValue) := (batchPoints b).flatMap Point.cells

omit [F64 F] in
/-- Requests that are stored in order write what they would if none were repeated. -/
theorem lastTo_log (hi : s.Inv) (ho : s.OrderInv) :
    lastTo Prod.fst s.log = lastTo Prod.fst (s.delivered.flatMap batchValues) := by
  have hlog : s.log = (s.stored.map Prod.fst).flatMap batchValues := by
    rw [List.flatMap_map]
    apply List.flatMap_congr
    intro e he
    rw [ho.whole e he]
    rfl
  have hparts := Pipeline.pairwise_pushed hi.pipe.queue
  have hsorted : (s.stored.map Prod.fst).Pairwise (fun b c => b.ptr ≤ c.ptr) := by
    rw [List.pairwise_map]
    exact ho.sorted
  have hmem : ∀ b ∈ s.stored.map Prod.fst, b ∈ s.pipe.pushed.map Pushed.batch := by
    intro b hb
    obtain ⟨e, he, rfl⟩ := List.mem_map.mp hb
    exact hi.sent e.1 (hi.stored e he).1
  rw [hlog]
  exact lastTo_redelivered hparts hsorted hmem

/-! ### What was accepted -/

/-- A batch that is recorded as written has been stored. -/
def AcceptedStored (s : Backend F) : Prop :=
  ∀ f ∈ s.pipe.finals, f.2 = .accepted → (f.1, batchPoints f.1) ∈ s.stored

theorem acceptedStored_step (hs : s.AcceptedStored) (hok : s.Truthful a)
    (h : s.step args a = some t) : t.AcceptedStored := by
  cases step_to h with
  | pipe a pipe hst =>
    intro f hf hv
    rcases Pipeline.finals_step hst f hf with hold | ⟨hsending, haccepted⟩
    · exact hs f hold hv
    · obtain ⟨now, rfl⟩ := haccepted hv
      exact hok f.1 hsending
  | store batch points hsent hpoints =>
    exact fun f hf hv => List.mem_append_left _ (hs f hf hv)

theorem acceptedStored_run (h : Run (step args) ok (new cap) as s)
    (hok : ∀ s a, ok s a → s.Truthful a) : s.AcceptedStored :=
  h.invariant (fun _ h => nomatch h) fun _ _ _ hs ha hst => acceptedStored_step hs (hok _ _ ha) hst

omit [F64 F] in
/-- The batch with an acceptance is the one that was pushed under its number. -/
theorem stored_of_accepted (hi : s.Inv) (hs : s.AcceptedStored) {p : Pushed F}
    (hp : p ∈ s.pipe.pushed) (hfate : s.pipe.HasFate p.batch.ptr .accepted) :
    (p.batch, batchPoints p.batch) ∈ s.stored := by
  have hverdicts : s.pipe.verdicts p.batch.ptr = [.accepted] := hfate
  have hmem : Verdict.accepted ∈ s.pipe.verdicts p.batch.ptr := by
    rw [hverdicts]
    exact List.mem_cons_self
  obtain ⟨f, hf, hv⟩ := List.mem_map.mp hmem
  obtain ⟨hfinal, hptr⟩ := List.mem_filter.mp hf
  have heq : f.1 = p.batch := by
    have hinj := (Pipeline.pairwise_pushed hi.pipe.queue).imp
      fun {b c : Batch} (hlt : b.ptr < c.ptr) => Nat.ne_of_lt hlt
    have hinj' := List.inj_on_of_nodup_map (f := Batch.ptr) (List.pairwise_map.mpr hinj)
    exact hinj' (hi.finals f hfinal) (List.mem_map_of_mem hp) (of_decide_eq_true hptr)
  rw [← heq]
  exact hs f hfinal hv

/-- **A batch is stored once, however often it is written.** In every run in which a request is
stored as a whole, and not after the writer has given up on it: the database has what it would have
if each of the batches of which something was stored had been stored once, in the order in which
they were pushed. And every batch that is recorded as written is one of them, if a request is only
answered with a success once it has been stored. -/
theorem exactly_once (hrun : Run (step args) InTime (new cap) as s) :
    s.db.get = (Database.write .empty (s.delivered.flatMap batchValues)).get ∧
    (Run (step args) (fun s a => s.InTime a ∧ s.Truthful a) (new cap) as s →
      ∀ p ∈ s.pipe.pushed, s.pipe.HasFate p.batch.ptr .accepted → p.batch ∈ s.delivered) := by
  have hi := inv_run hrun
  have ho : s.OrderInv := hrun.invariant_under inv_new (fun _ _ _ hi _ hst => inv_step hi hst)
    orderInv_new fun _ _ _ hi ho hok hst => orderInv_step hi ho hok hst
  constructor
  · funext cell
    rw [hi.db, lastTo_log hi ho, get_write, HashMap.get_empty, Option.or_none]
  · intro htrue p hp hfate
    have hs := acceptedStored_run htrue fun _ _ h => h.2
    have hstored := stored_of_accepted hi hs hp hfate
    unfold delivered
    rw [List.mem_filter]
    exact ⟨List.mem_map_of_mem hp, decide_eq_true (List.mem_map_of_mem hstored)⟩

/-! ### Results of different times -/

/-- The results of one probe have different times. -/
def Distinct (rs : List (ProbeResult F)) : Prop :=
  ∀ r ∈ rs, ∀ r' ∈ rs, r.probeName = r'.probeName →
    r.timestamp.timestampMillis = r'.timestamp.timestampMillis → r = r'

omit [F64 F] in
/-- There is at most one extra reading. -/
theorem keys_of_resultOf {p : ProbeConfig F} {r : ProbeResult F} (hr : ResultOf p r) :
    r.metrics.keys = [] ∨ r.metrics.keys = [TLS_CERT_EXPIRY_DAYS] := by
  have hnodup := r.metrics.nodup_keys
  have hall := hr.metrics
  cases hkeys : r.metrics.keys with
  | nil => exact .inl rfl
  | cons key keys =>
    rw [hkeys] at hnodup hall
    obtain rfl := hall key List.mem_cons_self
    have hnil : keys = [] := by
      rw [List.eq_nil_iff_forall_not_mem]
      intro key' hmem
      obtain rfl := hall key' (List.mem_cons_of_mem _ hmem)
      exact (List.nodup_cons.mp hnodup).1 hmem
    rw [hnil]
    exact .inr rfl

/-- No field of a point is given twice. -/
theorem nodup_fields {p : ProbeConfig F} {r : ProbeResult F} (hr : ResultOf p r) :
    ((toPoint r).fields.map Prod.fst).Nodup := by
  have hfields : (toPoint r).fields.map Prod.fst = ["up", "response_ms"] ++
      (r.statusCode.map fun _ => "status_code").toList ++ (r.error.map fun _ => "error").toList ++
      r.metrics.keys := by
    simp only [toPoint, List.map_append, Option.toList_map, List.map_map]
    rfl
  rw [hfields]
  rcases keys_of_resultOf hr with hkeys | hkeys
  all_goals
    rw [hkeys]
    cases r.statusCode
    all_goals
      cases r.error
      all_goals
        simp only [Option.map_none, Option.map_some, Option.toList_none, Option.toList_some]
        decide

/-- What the values of published results are stored under tells them apart. -/
theorem agree_of_distinct {cfg : AppConfig F} {rs : List (ProbeResult F)} (hd : Distinct rs)
    (hrs : ∀ r ∈ rs, Published cfg r) :
    Agree Prod.fst (rs.flatMap fun r => (toPoint r).cells) := by
  intro e he e' he' hcell
  obtain ⟨r, hr, hre⟩ := List.mem_flatMap.mp he
  obtain ⟨r', hr', hre'⟩ := List.mem_flatMap.mp he'
  obtain ⟨f, hf, rfl⟩ := List.mem_map.mp hre
  obtain ⟨f', hf', rfl⟩ := List.mem_map.mp hre'
  obtain ⟨-, htags, htime, hfield⟩ := Cell.mk.inj hcell
  have hname : r.probeName = r'.probeName := by
    simp only [toPoint, List.cons.injEq, Prod.mk.injEq, true_and] at htags
    exact htags.1
  obtain rfl := hd r hr r' hr' hname htime
  obtain ⟨p, -, hresult⟩ := (hrs r hr).resultOf
  have hff : f = f' := List.inj_on_of_nodup_map (nodup_fields hresult) hf hf' hfield
  rw [hff]

/-! ### What a request is made of -/

theorem received_step {P : ProbeResult F → Prop} (hp : ∀ r ∈ s.pipe.received, P r)
    (hok : Receives P a) (h : s.step args a = some t) : ∀ r ∈ t.pipe.received, P r := by
  cases step_to h with
  | store => exact hp
  | pipe a pipe hst =>
    cases Pipeline.step_to hst with
    | recvOk r hb =>
      intro r' hr'
      rcases List.mem_append.mp hr' with hold | hnew
      · exact hp r' hold
      · rw [List.mem_singleton.mp hnew]
        exact hok
    | recvLagged | recvClosed | timer | enqueueEmpty | enqueue | notifyOne | close | notifyWaiters
    | call | wait | retSome | retNone | accepted | rejected | retry | pop | sleep | shutdown =>
      exact hp

theorem batcherInv_run (hsize : 1 ≤ args.batchSize) (h : Run (step args) ok (new cap) as s) :
    s.pipe.BatcherInv args := by
  refine h.invariant (I := fun s => s.pipe.BatcherInv args) (Pipeline.batcherInv_new hsize) ?_
  intro s a t hb _ h
  cases step_to h with
  | store => exact hb
  | pipe a pipe hst => exact Pipeline.batcherInv_step hsize hb hst

section Published

variable {readToString : String → Except String String}
  {fromStr : String → Except String (AppConfig F)} {env : String → EnvVar} {path : String}
  {cfg : AppConfig F} {warnings : List String}

/-- The points of a request are those of the results in its batch. -/
theorem batchPoints_pushed
    (hload : loadWithWarnings readToString fromStr env path = .ok (cfg, warnings))
    (hb : s.pipe.BatcherInv args) (hp : ∀ r ∈ s.pipe.received, Published cfg r) {p : Pushed F}
    (hmem : p ∈ s.pipe.pushed) :
    batchPoints p.batch = p.results.map toPoint ∧ ∀ r ∈ p.results, r ∈ s.pipe.received := by
  have hreceived : ∀ r ∈ p.results, r ∈ s.pipe.received := by
    intro r hr
    rw [← hb.conserved]
    exact List.mem_append_left _ (List.mem_flatMap.mpr ⟨p, hmem, hr⟩)
  have hne : p.results ≠ [] := List.ne_nil_of_length_pos (hb.sizes p hmem).1
  have hprint : ∀ r ∈ p.results, Printable r := fun r hr =>
    printable_of_published hload (hp r (hreceived r hr))
  refine ⟨?_, hreceived⟩
  rw [batchPoints, hb.rendered p hmem, readBatch_batchText hne hprint]
  rfl

/-- What is stored are values of results. -/
theorem mem_of_mem_log
    (hload : loadWithWarnings readToString fromStr env path = .ok (cfg, warnings)) (hi : s.Inv)
    (hb : s.pipe.BatcherInv args) (hp : ∀ r ∈ s.pipe.received, Published cfg r)
    {e : Cell × FieldValue} (he : e ∈ s.log) :
    e ∈ s.pipe.received.flatMap fun r => (toPoint r).cells := by
  obtain ⟨⟨b, points⟩, hstored, hpoints⟩ := List.mem_flatMap.mp he
  obtain ⟨point, hpoint, hcell⟩ := List.mem_flatMap.mp hpoints
  obtain ⟨hsent, hsub⟩ := hi.stored _ hstored
  obtain ⟨p, hmem, rfl⟩ := List.mem_map.mp (hi.sent b hsent)
  obtain ⟨hbatch, hreceived⟩ := batchPoints_pushed hload hb hp hmem
  rw [hbatch] at hsub
  obtain ⟨r, hr, rfl⟩ := List.mem_map.mp (hsub.subset hpoint)
  exact List.mem_flatMap.mpr ⟨r, hreceived r hr, hcell⟩

/-- **What is recorded as written is in the database, and nothing else is.** Whatever becomes of the
requests, as long as one is only answered with a success once it has been stored: every value in the
database is that of a result that was received; and if the results of one probe have different
times, every value of a result in a batch that is recorded as written is in the database. -/
theorem reads_back (hload : loadWithWarnings readToString fromStr env path = .ok (cfg, warnings))
    (hsize : 1 ≤ args.batchSize)
    (hrun : Run (step args) (fun s a => s.Truthful a ∧ Receives (Published cfg) a) (new cap) as s) :
    (∀ cell value, s.db.get cell = some value →
      ∃ r ∈ s.pipe.received, (cell, value) ∈ (toPoint r).cells) ∧
    (Distinct s.pipe.received →
      ∀ p ∈ s.pipe.pushed, s.pipe.HasFate p.batch.ptr .accepted →
        ∀ r ∈ p.results, ∀ e ∈ (toPoint r).cells, s.db.get e.1 = some e.2) := by
  have hi := inv_run hrun
  have hb := batcherInv_run hsize hrun
  have hp : ∀ r ∈ s.pipe.received, Published cfg r :=
    hrun.invariant (I := fun s => ∀ r ∈ s.pipe.received, Published cfg r) (fun _ h => nomatch h)
      fun _ _ _ hp hok hst => received_step hp hok.2 hst
  have hlog := fun e he => mem_of_mem_log (e := e) hload hi hb hp he
  constructor
  · intro cell value hget
    rw [hi.db] at hget
    obtain ⟨e, he, rfl⟩ := Option.map_eq_some_iff.mp hget
    obtain ⟨hmem, rfl⟩ := key_of_lastTo he
    exact List.mem_flatMap.mp (hlog e hmem)
  · intro hd p hmem hfate r hr e he
    have hagree : Agree Prod.fst s.log := fun e he e' he' =>
      agree_of_distinct hd hp e (hlog e he) e' (hlog e' he')
    have hs := acceptedStored_run hrun fun _ _ h => h.1
    have hstored := stored_of_accepted hi hs hmem hfate
    rw [(batchPoints_pushed hload hb hp hmem).1] at hstored
    have hwritten : e ∈ s.log :=
      List.mem_flatMap.mpr ⟨_, hstored, List.mem_flatMap.mpr ⟨_, List.mem_map_of_mem hr, he⟩⟩
    rw [hi.db, (lastTo_eq_some_iff_of_agree hagree).mpr hwritten]
    rfl

end Published

/-! ### Requests that are lost and found -/

instance (s : Backend F) (a : BackendAction F) : Decidable (s.Truthful a) :=
  match a with
  | .pipe (.answer (.ok ()) _) =>
    inferInstanceAs (Decidable (∀ batch ∈ sending s.pipe, (batch, batchPoints batch) ∈ s.stored))
  | .pipe (.answer (.error _) _) | .pipe (.recv _) | .pipe .timer | .pipe .enqueue
  | .pipe .notifyOne | .pipe .close | .pipe .notifyWaiters | .pipe .call | .pipe .wait
  | .pipe .ret | .pipe .pop | .pipe .sleep | .pipe .shutdown | .store _ _ => .isTrue trivial

instance (s : Backend F) (a : BackendAction F) : Decidable (s.InTime a) :=
  match a with
  | .store batch points =>
    inferInstanceAs (Decidable (sending s.pipe = some batch ∧ points = batchPoints batch))
  | .pipe _ => .isTrue trivial

instance {P : ProbeResult F → Prop} [DecidablePred P] (a : BackendAction F) :
    Decidable (Receives P a) :=
  match a with
  | .pipe (.recv (.ok r)) => inferInstanceAs (Decidable (P r))
  | .pipe (.recv (.lagged _)) | .pipe (.recv .closed) | .pipe .timer | .pipe .enqueue
  | .pipe .notifyOne | .pipe .close | .pipe .notifyWaiters | .pipe .call | .pipe .wait
  | .pipe .ret | .pipe (.answer _ _) | .pipe .pop | .pipe .sleep | .pipe .shutdown
  | .store _ _ => .isTrue trivial

/-- Batches of one result. -/
def hostArgs : PipelineArgs := ⟨1, .fromMillis 500, .fromMillis 30000⟩

/-- A probe of a host, and what it publishes. -/
def hostProbe : ProbeConfig Decimal :=
  { ProbeConfig.default with name := "host", probeType := .tcp, target := "host:25" }

def hostConfig : AppConfig Decimal :=
  .ofInflux
    { InfluxConfig.default with url := "http://localhost:8086", org := "org", bucket := "bucket" }
    [hostProbe]

/-- The host can be reached, at some time. -/
def hostWorld (now : DateTime) : World Decimal :=
  { silentWorld 0 with now := now, connect := fun _ => ExceptT.mk (.ready 3 (.ok ())) }

def hostUp (now : DateTime) : ProbeResult Decimal :=
  .success now "host" "tcp" "host:25" (F64.ofInt 0) none

/-- Two times, a minute apart. -/
def firstTime : DateTime := ⟨0⟩
def secondTime : DateTime := ⟨60000000000⟩

def firstBatch : Batch := ⟨0, batchText [hostUp firstTime]⟩
def secondBatch : Batch := ⟨1, batchText [hostUp secondTime]⟩

/-- What is received: a result of either time. -/
def OfTheHost (r : ProbeResult Decimal) : Prop := r = hostUp firstTime ∨ r = hostUp secondTime

instance : DecidablePred OfTheHost := fun r =>
  inferInstanceAs (Decidable (r = hostUp firstTime ∨ r = hostUp secondTime))

/-- Two batches are queued. The first is stored, its answer is lost, and it is written again before
the second. -/
def retried : List (BackendAction Decimal) :=
  [.pipe (.recv (.ok (hostUp firstTime))), .pipe .enqueue, .pipe .notifyOne,
    .pipe (.recv (.ok (hostUp secondTime))), .pipe .enqueue, .pipe .notifyOne,
    .pipe .call, .pipe .wait, .pipe .ret, .store firstBatch [toPoint (hostUp firstTime)],
    .pipe (.answer (.error (.transport "timed out")) 0), .pipe .sleep,
    .store firstBatch [toPoint (hostUp firstTime)], .pipe (.answer (.ok ()) 0), .pipe .pop,
    .pipe .call, .pipe .wait, .pipe .ret, .store secondBatch [toPoint (hostUp secondTime)],
    .pipe (.answer (.ok ()) 0), .pipe .pop]

theorem run_retried : ∃ s,
    Run (step hostArgs) (fun s a => (s.InTime a ∧ s.Truthful a) ∧ Receives OfTheHost a)
      (new 1024) retried s ∧
    s.pipe.received = [hostUp firstTime, hostUp secondTime] ∧
    s.pipe.pushed = [⟨[hostUp firstTime], firstBatch⟩, ⟨[hostUp secondTime], secondBatch⟩] ∧
    (∀ p ∈ s.pipe.pushed, s.pipe.HasFate p.batch.ptr .accepted) ∧ s.stored.length = 3 := by
  have hmap : (runActions (step hostArgs) (fun s a => (s.InTime a ∧ s.Truthful a) ∧
      Receives OfTheHost a) (new 1024) retried).map
        (fun s => (s.pipe.received, s.pipe.pushed, s.pipe.verdicts 0, s.pipe.verdicts 1,
          s.stored.length)) =
          some ([hostUp firstTime, hostUp secondTime],
            [⟨[hostUp firstTime], firstBatch⟩, ⟨[hostUp secondTime], secondBatch⟩], [.accepted],
            [.accepted], 3) := by
    decide +kernel
  obtain ⟨s, hs, hfacts⟩ := Option.map_eq_some_iff.mp hmap
  simp only [Prod.mk.injEq] at hfacts
  obtain ⟨hreceived, hpushed, hfirst, hsecond, hlen⟩ := hfacts
  refine ⟨s, run_of_runActions _ hs, hreceived, hpushed, ?_, hlen⟩
  rw [hpushed, List.forall_mem_cons, List.forall_mem_singleton]
  exact ⟨hfirst, hsecond⟩

theorem exactly_once_retried : ∃ s, Run (step hostArgs) InTime (new 1024) retried s ∧
    s.stored.length = 3 ∧ s.delivered = [firstBatch, secondBatch] ∧
    s.db.get = (Database.write .empty (s.delivered.flatMap batchValues)).get := by
  obtain ⟨s, hall, -, hpushed, hfate, hlen⟩ := run_retried
  have hrun : Run (step hostArgs) InTime (new 1024) retried s := hall.mono fun _ _ h => h.1.1
  obtain ⟨hdb, hdelivered⟩ := exactly_once hrun
  have hmem : ∀ p ∈ s.pipe.pushed, p.batch ∈ s.delivered := fun p hp =>
    hdelivered (hall.mono fun _ _ h => h.1) p hp (hfate p hp)
  refine ⟨s, hrun, hlen, ?_, hdb⟩
  have hboth : ∀ b ∈ s.pipe.pushed.map Pushed.batch, decide (b ∈ s.stored.map Prod.fst) := by
    intro b hb
    obtain ⟨p, hp, rfl⟩ := List.mem_map.mp hb
    exact (List.mem_filter.mp (hmem p hp)).2
  rw [delivered, List.filter_eq_self.mpr hboth, hpushed]
  rfl

theorem published_hostUp {r : ProbeResult Decimal} (h : OfTheHost r) : Published hostConfig r := by
  rcases h with rfl | rfl
  · exact ⟨hostProbe, List.mem_cons_self, hostWorld firstTime, 3, by decide +kernel⟩
  · exact ⟨hostProbe, List.mem_cons_self, hostWorld secondTime, 3, by decide +kernel⟩

theorem reads_back_retried : ∃ s,
    Run (step hostArgs) (fun s a => s.Truthful a ∧ Receives (Published hostConfig) a) (new 1024)
      retried s ∧
    ∀ r ∈ [hostUp firstTime, hostUp secondTime], ∀ e ∈ (toPoint r).cells,
      s.db.get e.1 = some e.2 := by
  obtain ⟨s, hall, hreceived, hpushed, hfate, -⟩ := run_retried
  have hload : loadWithWarnings (fun _ => .ok "") (fun _ => .ok hostConfig) (fun _ => .unset)
      "config.yml" = .ok (hostConfig, []) := by
    decide +kernel
  have hrun : Run (step hostArgs) (fun s a => s.Truthful a ∧ Receives (Published hostConfig) a)
      (new 1024) retried s := by
    refine hall.mono fun s a h => ⟨h.1.2, ?_⟩
    have hreceives := h.2
    unfold Receives at hreceives ⊢
    split
    · exact published_hostUp hreceives
    · trivial
  have hd : Distinct s.pipe.received := by
    rw [hreceived]
    unfold Distinct
    decide +kernel
  obtain ⟨-, hback⟩ := reads_back hload (le_refl 1) hrun
  refine ⟨s, hrun, fun r hr => ?_⟩
  have hresults : s.pipe.pushed.flatMap Pushed.results = [hostUp firstTime, hostUp secondTime] := by
    rw [hpushed]
    rfl
  rw [← hresults] at hr
  obtain ⟨p, hp, hmem⟩ := List.mem_flatMap.mp hr
  exact hback hd p hp (hfate p hp) r hmem

end Backend

end Huginn.Influx
