import Huginn.Influx.Correct.Accounting
import Huginn.Main.Scrape
import Huginn.Web.Correct.ReadBack

/-!
# What a scrape says of the write path

A page has one sample of every counter, and none of the probes can have another one under its name
(`filter_samples_families`). Each counter is a count of what became of the batches
(`Pipeline.load_eq_count`). A page is loaded counter by counter while these change, but every value
that it shows was true at some time during the scrape (`Scraped.scrapes_tell`), and no total is ever
less on a page than on one before (`Scraped.totals_never_decrease`).
-/

namespace Huginn

/-! ### The text -/

namespace Web

open Exposition

variable {F : Type} [F64 F]

/-- The families of the probes have names of their own. -/
theorem name_of_mem_probeFamilies {results : HashMap String (ProbeResult F)} {f : Family}
    (hf : f ∈ probeFamilies results) :
    f.kind = "gauge" ∧ ∃ key, f.name = "huginn_probe_" ++ key := by
  rcases List.mem_append.mp hf with hbase | hextra
  · have hmem : f ∈ baseFamilies (sortedProbes results) := (List.mem_filter.mp hbase).1
    simp only [baseFamilies, List.mem_cons, List.not_mem_nil, or_false] at hmem
    rcases hmem with rfl | rfl | rfl | rfl
    · exact ⟨rfl, "success", rfl⟩
    · exact ⟨rfl, "duration_seconds", rfl⟩
    · exact ⟨rfl, "http_status_code", rfl⟩
    · exact ⟨rfl, "last_run_timestamp_seconds", rfl⟩
  · obtain ⟨e, -, rfl⟩ := List.mem_map.mp (List.mem_filter.mp hextra).1
    exact ⟨rfl, e.1, rfl⟩

theorem family_mem_writePathNames (c : Counter) : c.family ∈ writePathNames := by
  cases c
  all_goals decide +kernel

/-- The sample of a counter. -/
def counterSample (F : Type) [F64 F] (c : Counter) (n : ℕ) : Sample :=
  ⟨c.family, [], F64.display (F64.ofInt n : F)⟩

theorem samples_writePathFamilies (stats : WriteStats) :
    samples ((writePathFamilies F stats).flatMap Family.lines) =
      Counter.order.map fun c => counterSample F c (c.load stats) := rfl

theorem filter_order (c : Counter) : (Counter.order.filter fun d => d.family = c.family) = [c] := by
  cases c
  all_goals decide +kernel

/-- **A page has one sample of every counter**, whatever the probes measure. -/
theorem filter_samples_families (results : HashMap String (ProbeResult F)) (stats : WriteStats)
    (c : Counter) :
    (samples ((families results stats).flatMap Family.lines)).filter (·.name = c.family) =
      [counterSample F c (c.load stats)] := by
  have hprobes : (samples ((probeFamilies results).flatMap Family.lines)).filter
      (·.name = c.family) = [] := by
    refine List.filter_eq_nil_iff.mpr fun s hs hname => ?_
    rw [samples_flatMap_lines] at hs
    obtain ⟨f, hf, hmem⟩ := List.mem_flatMap.mp hs
    obtain ⟨e, -, rfl⟩ := List.mem_map.mp hmem
    obtain ⟨-, key, hkey⟩ := name_of_mem_probeFamilies hf
    have heq : f.name = c.family := of_decide_eq_true hname
    exact probe_not_mem_writePathNames key (hkey ▸ heq ▸ family_mem_writePathNames c)
  have hwrite : (samples ((writePathFamilies F stats).flatMap Family.lines)).filter
      (·.name = c.family) = [counterSample F c (c.load stats)] := by
    rw [samples_writePathFamilies, List.filter_map]
    exact congrArg (List.map fun d => counterSample F d (d.load stats)) (filter_order c)
  rw [families_eq, List.flatMap_append, samples_append, List.filter_append, hprobes, hwrite,
    List.nil_append]

/-- What is announced as a `counter` is a total. -/
theorem exists_counter_of_type {results : HashMap String (ProbeResult F)} {stats : WriteStats}
    {doc : List Line} {name : String} (hread : read (render results stats) = some doc)
    (htype : .type name "counter" ∈ doc) : ∃ c : Counter, c.isTotal = true ∧ c.family = name := by
  rw [read_render, Option.some.injEq] at hread
  rw [← hread, families_eq] at htype
  obtain ⟨f, hf, hline⟩ := List.mem_flatMap.mp htype
  have hkind : f.name = name ∧ f.kind = "counter" := by
    simp only [Family.lines, List.mem_cons, List.mem_map, reduceCtorEq, and_false, exists_false,
      or_false, false_or, Line.type.injEq] at hline
    exact ⟨hline.1.symm, hline.2.symm⟩
  obtain ⟨rfl, hkind⟩ := hkind
  rcases List.mem_append.mp hf with hprobe | hwrite
  · rw [(name_of_mem_probeFamilies hprobe).1] at hkind
    exact absurd hkind (by decide)
  · simp only [writePathFamilies, List.mem_cons, List.not_mem_nil, or_false] at hwrite
    rcases hwrite with rfl | rfl | rfl | rfl | rfl | rfl | rfl | rfl
    · exact absurd hkind (by simp [scalarFamily])
    · exact absurd hkind (by simp [scalarFamily])
    · exact ⟨.writtenBatches, rfl, rfl⟩
    · exact ⟨.writtenBytes, rfl, rfl⟩
    · exact ⟨.droppedBatches, rfl, rfl⟩
    · exact ⟨.droppedBytes, rfl, rfl⟩
    · exact ⟨.rejectedBatches, rfl, rfl⟩
    · exact absurd hkind (by simp [scalarFamily])

end Web

/-! ### The counts -/

namespace Influx.Pipeline

open DropOldest

variable {F : Type} [F64 F] {args : PipelineArgs} {s t : Pipeline F} {a : PipelineAction F}
  {as : List (PipelineAction F)} {cap : ℕ} {ok : Pipeline F → PipelineAction F → Prop}

/-- The batches that were accepted, in the order of the answers. -/
def acceptedBatches (s : Pipeline F) : List Batch :=
  (s.finals.filter fun f => f.2 = .accepted).map Prod.fst

/-- What a counter is meant to count. The time of the last write is no count. -/
def count (s : Pipeline F) : Counter → ℕ
  | .queueBatches => s.sys.queue.inner.batches.length
  | .queueBytes => weight Batch.len s.sys.queue.inner.batches
  | .writtenBatches => s.acceptedBatches.length
  | .writtenBytes => weight Batch.len s.acceptedBatches
  | .droppedBatches => s.evicted.length
  | .droppedBytes => weight Batch.len s.evicted
  | .rejectedBatches => s.finals.countP fun f => f.2 ≠ .accepted
  | .lastWriteSuccessUnix => s.sys.queue.stats.lastWriteSuccessUnix

/-- The bytes are those of the batches. -/
structure BytesInv (s : Pipeline F) : Prop where
  written : s.sys.queue.stats.writtenBytes = weight Batch.len s.acceptedBatches
  dropped : s.sys.queue.stats.droppedBytes = weight Batch.len s.evicted

omit [F64 F] in
theorem bytesInv_new : BytesInv (new cap : Pipeline F) := ⟨rfl, rfl⟩

omit [F64 F] in
theorem popIfFront_bytes {q : RetryQueue} (hw : q.Wf) (b : Batch) :
    (q.popIfFront b).1.stats.writtenBytes = q.stats.writtenBytes ∧
    (q.popIfFront b).1.stats.droppedBytes = q.stats.droppedBytes := by
  rcases RetryQueue.popIfFront_cases (b := b) hw with ⟨front, batches, -, -, heq⟩ | ⟨-, heq⟩
  all_goals
    rw [heq]
    exact ⟨rfl, rfl⟩

theorem bytesInv_step (hq : s.QueueInv) (hi : s.BytesInv) (h : s.step args a = some t) :
    t.BytesInv := by
  obtain ⟨hwritten, hdropped⟩ := hi
  cases step_to h with
  | accepted b attempt now hw =>
    have haccepted : acceptedBatches { s.withStats (·.recordWritten b.len now) with
        writer := .answered b, finals := s.finals ++ [(b, .accepted)] } =
          s.acceptedBatches ++ [b] := by
      simp [acceptedBatches]
    refine ⟨?_, hdropped⟩
    rw [haccepted, weight_append, ← hwritten, weight_cons, weight_nil]
    rfl
  | rejected b attempt e now hw =>
    have haccepted : acceptedBatches { s.withStats (·.recordRejected) with
        writer := .answered b, finals := s.finals ++ [(b, .rejected)] } = s.acceptedBatches := by
      simp [acceptedBatches]
    refine ⟨?_, hdropped⟩
    rw [haccepted, ← hwritten]
    rfl
  | enqueue last hb hbuf hp =>
    have heq := RetryQueue.pushLocked_eq (b := s.nextBatch) hq.wf
    refine ⟨?_, ?_⟩
    · show (s.sys.queue.pushLocked s.nextBatch).stats.writtenBytes =
        weight Batch.len s.acceptedBatches
      rw [heq, ← hwritten]
    · rw [weight_append, ← hdropped, RetryQueue.evictedBy_eq hq.wf, heq]
  | pop b hw hidle =>
    obtain ⟨h1, h2⟩ := popIfFront_bytes hq.wf b
    exact ⟨h1.trans hwritten, h2.trans hdropped⟩
  | wait sys hw hto =>
    refine ⟨?_, ?_⟩
    · exact hto.stats_eq ▸ hwritten
    · exact hto.stats_eq ▸ hdropped
  | recvOk | recvLagged | recvClosed | timer | enqueueEmpty | notifyOne | close | notifyWaiters
  | call | retSome | retNone | retry | sleep | shutdown => exact ⟨hwritten, hdropped⟩

/-- **The counters are the counts**, in every state that can be reached. -/
theorem load_eq_count (h : FreeRun (step args) (new cap) as s) (c : Counter) :
    c.load s.sys.queue.stats = s.count c := by
  have hi := inv_run h
  have hstats := statsInv_run h
  have hbytes : s.BytesInv :=
    h.invariant_under inv_new (fun _ _ _ hi _ hst => inv_step hi hst) bytesInv_new
      fun _ _ _ hi hs _ hst => bytesInv_step hi.queue hs hst
  cases c with
  | queueBatches => exact hi.queue.wf.depth_batches
  | queueBytes => exact hi.queue.wf.depth_bytes.trans hi.queue.wf.bytes_eq
  | writtenBatches =>
    have hlen : s.acceptedBatches.length = s.finals.countP fun f => f.2 = .accepted := by
      rw [acceptedBatches, List.length_map, List.countP_eq_length_filter]
    exact hstats.written.trans hlen.symm
  | writtenBytes => exact hbytes.written
  | droppedBatches => exact hstats.dropped
  | droppedBytes => exact hbytes.dropped
  | rejectedBatches => exact hstats.rejected
  | lastWriteSuccessUnix => rfl

omit [F64 F] in
/-- The totals only grow. -/
theorem count_le_of_prefix {c : Counter} (hc : c.isTotal = true)
    (hevicted : s.evicted <+: t.evicted) (hfinals : s.finals <+: t.finals) :
    s.count c ≤ t.count c := by
  obtain ⟨es, hes⟩ := hevicted
  obtain ⟨fs, hfs⟩ := hfinals
  have haccepted : t.acceptedBatches = s.acceptedBatches ++
      (fs.filter fun f => f.2 = .accepted).map Prod.fst := by
    rw [acceptedBatches, ← hfs, List.filter_append, List.map_append, acceptedBatches]
  cases c with
  | writtenBatches =>
    show s.acceptedBatches.length ≤ t.acceptedBatches.length
    rw [haccepted, List.length_append]
    omega
  | writtenBytes =>
    show weight Batch.len s.acceptedBatches ≤ weight Batch.len t.acceptedBatches
    rw [haccepted, weight_append]
    omega
  | droppedBatches =>
    show s.evicted.length ≤ t.evicted.length
    rw [← hes, List.length_append]
    omega
  | droppedBytes =>
    show weight Batch.len s.evicted ≤ weight Batch.len t.evicted
    rw [← hes, weight_append]
    omega
  | rejectedBatches =>
    show s.finals.countP _ ≤ t.finals.countP _
    rw [← hfs, List.countP_append]
    omega
  | queueBatches | queueBytes | lastWriteSuccessUnix => cases hc

end Influx.Pipeline

/-! ### The pages -/

namespace Main.Scraped

open Exposition Influx Web

variable {F : Type} [F64 F] {args : PipelineArgs} {s : Scraped F} {cap : ℕ}
  {as : List (ScanAction (PipelineAction F))}

/-- What was loaded is what is rendered. -/
theorem load_ofLoads_mem {loads : List (Counter × ℕ)}
    (horder : loads.map Prod.fst = Counter.order) (c : Counter) :
    (c, c.load (.ofLoads loads)) ∈ loads := by
  have hmem : c ∈ loads.map Prod.fst := by
    rw [horder]
    cases c
    all_goals decide
  obtain ⟨v, hv, hvc⟩ := List.mem_map.mp hmem
  have hsome : (loads.lookup c).isSome = true :=
    List.lookup_isSome_iff.mpr ⟨v, hv, beq_iff_eq.mpr hvc.symm⟩
  obtain ⟨n, hn⟩ := Option.isSome_iff_exists.mp hsome
  have hload : c.load (.ofLoads loads) = n := by
    cases c
    all_goals simp only [Counter.load, WriteStats.ofLoads, hn, Option.getD_some]
  obtain ⟨before, after, rfl, -⟩ := List.lookup_eq_some_iff.mp hn
  rw [hload]
  exact List.mem_append_right before List.mem_cons_self

/-- **A page tells what became of the batches.** However the tasks go on during a scrape, the page
has one sample of each counter, with a number that was true at some time between its beginning and
its end. The times are those between two steps of the tasks: a push that evicts several batches
counts them one by one, within one step, and a page that is loaded in the middle of it can show the
count of some of them. A counter is exact here, and one of the source up to 2^64. -/
theorem scrapes_tell (h : FreeRun (step args) (new cap) as s) :
    ∀ scan ∈ s.scans, ∀ results : HashMap String (ProbeResult F),
      ∃ ss, readSamples (render results (.ofLoads scan.values)) = some ss ∧
        ∀ c : Counter, ∃ p, Reachable (Pipeline.step args) scan.begun p ∧
          Reachable (Pipeline.step args) p scan.ended ∧
          ss.filter (·.name = c.family) = [counterSample F c (p.count c)] := by
  intro scan hscan results
  obtain ⟨hbegun, horder, hvalues⟩ := (Scanner.scanned h).1 scan hscan
  refine ⟨_, readSamples_write families_ok (toList_render results _), fun c => ?_⟩
  obtain ⟨p, hp, hended, hload⟩ := hvalues _ (load_ofLoads_mem horder c)
  have hcount : c.load p.sys.queue.stats = p.count c := by
    obtain ⟨bs, hbs⟩ := hbegun.trans hp
    exact Pipeline.load_eq_count hbs c
  have hvalue : c.load (.ofLoads scan.values) = p.count c := hload.trans hcount
  exact ⟨p, hp, hended, by rw [filter_samples_families, hvalue]⟩

/-- One scrape. -/
def scrape : List (ScanAction (PipelineAction Decimal)) :=
  .start :: Counter.order.map (fun _ => .read) ++ [.finish]

/-- A scrape, a batch that is accepted, and another scrape. -/
def twoScrapes : List (ScanAction (PipelineAction Decimal)) :=
  scrape ++ Pipeline.acceptOne.map .act ++ scrape

theorem scrapes_tell_twoScrapes :
    ∃ s, FreeRun (step Pipeline.sampleArgs) (new 1024) twoScrapes s ∧
      (s.scans.map fun scan => Counter.writtenBatches.load (.ofLoads scan.values)) = [0, 1] ∧
      ∀ scan ∈ s.scans, ∀ results : HashMap String (ProbeResult Decimal),
        ∃ ss, readSamples (render results (.ofLoads scan.values)) = some ss ∧
          ∀ c : Counter, ∃ p, Reachable (Pipeline.step Pipeline.sampleArgs) scan.begun p ∧
            Reachable (Pipeline.step Pipeline.sampleArgs) p scan.ended ∧
            ss.filter (·.name = c.family) = [counterSample Decimal c (p.count c)] := by
  obtain ⟨s, hs⟩ : ∃ s, runActions (step Pipeline.sampleArgs) (fun _ _ => True) (new 1024)
      twoScrapes = some s := ⟨_, rfl⟩
  have hwritten : (s.scans.map fun scan =>
      Counter.writtenBatches.load (.ofLoads scan.values)) = [0, 1] := by
    obtain rfl := Option.some.inj hs
    rfl
  have hrun := run_of_runActions _ hs
  exact ⟨s, hrun, hwritten, scrapes_tell hrun⟩

/-- A total grows with every step of the tasks. -/
theorem load_le_of_step {c : Counter} (hc : c.isTotal = true) (p : Pipeline F)
    (a : PipelineAction F) (q : Pipeline F)
    (hp : Reachable (Pipeline.step args) (.new cap) p) (hst : p.step args a = some q) :
    c.load p.sys.queue.stats ≤ c.load q.sys.queue.stats := by
  obtain ⟨bs, hbs⟩ := hp
  obtain ⟨hevicted, hfinals⟩ := Pipeline.history_grows hst
  rw [Pipeline.load_eq_count hbs, Pipeline.load_eq_count (hbs.snoc trivial hst)]
  exact Pipeline.count_le_of_prefix hc hevicted hfinals

/-- **A total never decreases**: what is announced as a counter on a page has one sample on it and
on every later page, and the later is at least what the earlier was. In the source a total that has
reached 2^64 starts again at zero, and this is about the time before. -/
theorem totals_never_decrease (h : FreeRun (step args) (new cap) as s) :
    s.scans.Pairwise fun a b => ∀ (results results' : HashMap String (ProbeResult F))
      (name : String) (doc doc' : List Line),
      read (render results (.ofLoads a.values)) = some doc →
      read (render results' (.ofLoads b.values)) = some doc' → .type name "counter" ∈ doc →
        ∃ m n : ℕ, m ≤ n ∧
          (samples doc).filter (·.name = name) = [⟨name, [], F64.display (F64.ofInt m : F)⟩] ∧
          (samples doc').filter (·.name = name) = [⟨name, [], F64.display (F64.ofInt n : F)⟩] := by
  have horder := (Scanner.scanned h).1
  have hle : s.scans.Pairwise fun a b => ∀ c : Counter, c.isTotal = true →
      ∀ v w, (c, v) ∈ a.values → (c, w) ∈ b.values → v ≤ w :=
    Scanner.pairwise_of_mono (fun c hc => load_le_of_step hc) h
  refine hle.imp_of_mem fun {a b} ha hb hab results results' name doc doc' hdoc hdoc' htype => ?_
  obtain ⟨c, hc, rfl⟩ := exists_counter_of_type hdoc htype
  rw [read_render, Option.some.injEq] at hdoc hdoc'
  refine ⟨c.load (.ofLoads a.values), c.load (.ofLoads b.values), ?_, ?_, ?_⟩
  · exact hab c hc _ _ (load_ofLoads_mem (horder a ha).2.1 c) (load_ofLoads_mem (horder b hb).2.1 c)
  · rw [← hdoc, filter_samples_families]
    rfl
  · rw [← hdoc', filter_samples_families]
    rfl

theorem totals_never_decrease_twoScrapes :
    ∃ s, FreeRun (step Pipeline.sampleArgs) (new 1024) twoScrapes s ∧ s.scans.length = 2 ∧
      s.scans.Pairwise fun a b => ∀ (results results' : HashMap String (ProbeResult Decimal))
        (name : String) (doc doc' : List Line),
        read (render results (.ofLoads a.values)) = some doc →
        read (render results' (.ofLoads b.values)) = some doc' → .type name "counter" ∈ doc →
          ∃ m n : ℕ, m ≤ n ∧
            (samples doc).filter (·.name = name) =
              [⟨name, [], F64.display (F64.ofInt m : Decimal)⟩] ∧
            (samples doc').filter (·.name = name) =
              [⟨name, [], F64.display (F64.ofInt n : Decimal)⟩] := by
  obtain ⟨s, hs⟩ : ∃ s, runActions (step Pipeline.sampleArgs) (fun _ _ => True) (new 1024)
      twoScrapes = some s := ⟨_, rfl⟩
  have hlen : s.scans.length = 2 := by
    obtain rfl := Option.some.inj hs
    rfl
  have hrun := run_of_runActions _ hs
  exact ⟨s, hrun, hlen, totals_never_decrease hrun⟩

end Main.Scraped

end Huginn
