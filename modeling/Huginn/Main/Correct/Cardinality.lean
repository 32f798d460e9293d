import Huginn.Influx.Correct.Framing
import Huginn.Main.Correct.Published
import Huginn.Main.Correct.Verdict
import Huginn.Probes.Correct.Readings
import Huginn.Web.Correct.OneProbe

/-!
# The configuration bounds the number of series

What a target answers ends up in values and in the error, and never in what tells series apart. So
both backends see only the series that the configuration describes (`Daemon.series_bounded`),
however long the process runs and whatever the targets do.
-/

namespace Huginn.Main

open Exposition Influx Probes Web

variable {F : Type} [F64 F]

/-! ### The series of a configuration -/

/-- What tells a sample apart. -/
def seriesOf (s : Sample) : String × List (String × String) := (s.name, s.labels)

/-- The labels of the samples about a probe. -/
def probeLabels (p : ProbeConfig F) : List (String × String) :=
  [("probe", p.name), ("type", p.probeType.display), ("target", p.target)]

/-- The tags of the points about a probe. -/
def probeTags (p : ProbeConfig F) : List (String × String) :=
  [("probe_name", p.name), ("probe_type", p.probeType.display), ("target", p.target)]

/-- The families that can have a sample about a probe. -/
def probeFamilyNames (p : ProbeConfig F) : List String :=
  ["huginn_probe_success", "huginn_probe_duration_seconds",
    "huginn_probe_last_run_timestamp_seconds"] ++
  match p.probeType with
  | .http | .https => ["huginn_probe_http_status_code"]
  | .tls => ["huginn_probe_tls_cert_expiry_days"]
  | .tcp | .smtp | .imap | .udp | .dns => []

/-- The fields that a point about a probe can have. -/
def probeFieldKeys (p : ProbeConfig F) : List String :=
  ["up", "response_ms", "error"] ++
  match p.probeType with
  | .http | .https => ["status_code"]
  | .tls => [TLS_CERT_EXPIRY_DAYS]
  | .tcp | .smtp | .imap | .udp | .dns => []

/-- The series that a scrape can have. -/
def configSeries (cfg : AppConfig F) : List (String × List (String × String)) :=
  (writePathNames.map fun name => (name, [])) ++
    cfg.probes.flatMap fun p => (probeFamilyNames p).map fun name => (name, probeLabels p)

omit [F64 F] in
theorem length_probeFamilyNames_le (p : ProbeConfig F) : (probeFamilyNames p).length ≤ 4 := by
  unfold probeFamilyNames
  cases p.probeType <;> decide

theorem length_flatMap_le {α β : Type} {f : α → List β} {n : ℕ} {l : List α}
    (h : ∀ a ∈ l, (f a).length ≤ n) : (l.flatMap f).length ≤ n * l.length := by
  induction l with
  | nil => exact Nat.le_refl 0
  | cons a l ih =>
    have ha := h a List.mem_cons_self
    have hl := ih fun b hb => h b (List.mem_cons_of_mem a hb)
    rw [List.flatMap_cons, List.length_append, List.length_cons, Nat.mul_succ]
    omega

omit [F64 F] in
theorem length_configSeries_le (cfg : AppConfig F) :
    (configSeries cfg).length ≤ 4 * cfg.probes.length + 8 := by
  have hprobes : (cfg.probes.flatMap fun p =>
      (probeFamilyNames p).map fun name => (name, probeLabels p)).length ≤
        4 * cfg.probes.length := by
    apply length_flatMap_le
    intro p _
    rw [List.length_map]
    exact length_probeFamilyNames_le p
  have hwritePath : (writePathNames.map fun name =>
      ((name, []) : String × List (String × String))).length = 8 := by
    rw [List.length_map]
    rfl
  rw [configSeries, List.length_append, hwritePath]
  omega

/-! ### What a result has -/

/-- A result of a probe, with what its type has to report. -/
structure Fits (p : ProbeConfig F) (r : ProbeResult F) : Prop extends ResultOf p r, Readings p r

theorem fits_of_published {cfg : AppConfig F} {r : ProbeResult F} (h : Published cfg r) :
    ∃ p ∈ cfg.probes, Fits p r := by
  obtain ⟨p, hp, w, t, hready⟩ := h
  have hresult := execute_resultOf w t r hready
  have hreadings := execute_readings w t r hready
  exact ⟨p, hp, { hresult, hreadings with }⟩

omit [F64 F] in
theorem Fits.labels {p : ProbeConfig F} {r : ProbeResult F} (h : Fits p r) :
    labelsOf r = probeLabels p := by
  rw [labelsOf, h.probeName, h.probeType, h.target]
  rfl

omit [F64 F] in
theorem mem_configSeries {cfg : AppConfig F} {p : ProbeConfig F} (hp : p ∈ cfg.probes)
    {r : ProbeResult F} (h : Fits p r) {name : String} (hname : name ∈ probeFamilyNames p) :
    (name, labelsOf r) ∈ configSeries cfg := by
  apply List.mem_append_right
  apply List.mem_flatMap.mpr
  refine ⟨p, hp, List.mem_map.mpr ⟨name, hname, ?_⟩⟩
  rw [h.labels]

omit [F64 F] in
/-- A family of every probe. -/
theorem mem_probeFamilyNames (p : ProbeConfig F) {name : String}
    (h : name ∈ ["huginn_probe_success", "huginn_probe_duration_seconds",
      "huginn_probe_last_run_timestamp_seconds"]) : name ∈ probeFamilyNames p :=
  List.mem_append_left _ h

omit [F64 F] in
theorem sanitizeMetricName_days :
    sanitizeMetricName TLS_CERT_EXPIRY_DAYS = "tls_cert_expiry_days" := by decide +kernel

/-! ### A scrape -/

/-- What results of configured probes prescribe is in the configuration. -/
theorem seriesOf_prescribed {cfg : AppConfig F} {probes : List (ProbeResult F)}
    (hfits : ∀ r ∈ probes, ∃ p ∈ cfg.probes, Fits p r) {keys : List String} {s : Sample}
    (hs : s ∈ prescribed probes keys) : seriesOf s ∈ configSeries cfg := by
  have hbase : ∀ r ∈ probes, ∀ name ∈ ["huginn_probe_success", "huginn_probe_duration_seconds",
      "huginn_probe_last_run_timestamp_seconds"], (name, labelsOf r) ∈ configSeries cfg := by
    intro r hr name hname
    obtain ⟨p, hp, hfit⟩ := hfits r hr
    exact mem_configSeries hp hfit (mem_probeFamilyNames p hname)
  simp only [prescribed, List.mem_append, List.mem_map, List.mem_filterMap] at hs
  rcases hs with (((⟨r, hr, rfl⟩ | ⟨r, hr, rfl⟩) | ⟨r, hr, hstatus⟩) | ⟨r, hr, rfl⟩) | hs
  · exact hbase r hr "huginn_probe_success" (by simp)
  · exact hbase r hr "huginn_probe_duration_seconds" (by simp)
  · obtain ⟨p, hp, hfit⟩ := hfits r hr
    obtain ⟨code, hcode, rfl⟩ := Option.map_eq_some_iff.mp hstatus
    show ("huginn_probe_http_status_code", labelsOf r) ∈ configSeries cfg
    apply mem_configSeries hp hfit
    have htype := hfit.status (by rw [hcode]; exact Option.some_ne_none code)
    unfold probeFamilyNames
    rcases htype with htype | htype
    · rw [htype]
      simp
    · rw [htype]
      simp
  · exact hbase r hr "huginn_probe_last_run_timestamp_seconds" (by simp)
  · obtain ⟨key, -, r, hr, e, he, rfl, rfl⟩ := mem_metricSamples.mp hs
    obtain ⟨p, hp, hfit⟩ := hfits r hr
    have hkey : e.1 ∈ r.metrics.keys := List.mem_map_of_mem he
    show ("huginn_probe_" ++ sanitizeMetricName e.1, labelsOf r) ∈ configSeries cfg
    apply mem_configSeries hp hfit
    rw [hfit.metrics e.1 hkey, sanitizeMetricName_days]
    unfold probeFamilyNames
    rw [hfit.days (List.ne_nil_of_mem hkey)]
    simp

theorem seriesOf_writePath (cfg : AppConfig F) {stats : WriteStats} {s : Sample}
    (hs : s ∈ samples ((writePathFamilies F stats).flatMap Family.lines)) :
    seriesOf s ∈ configSeries cfg := by
  rw [samples_flatMap_lines] at hs
  obtain ⟨f, hf, hmem⟩ := List.mem_flatMap.mp hs
  apply List.mem_append_left
  simp only [writePathFamilies, List.mem_cons, List.not_mem_nil, or_false] at hf
  rcases hf with rfl | rfl | rfl | rfl | rfl | rfl | rfl | rfl
  all_goals
    obtain rfl := List.mem_singleton.mp hmem
    simp [seriesOf, writePathNames, scalarFamily]

omit [F64 F] in
/-- The only key of a reading makes no family twice. -/
theorem noClash_of_fits {cfg : AppConfig F} {m : HashMap String (ProbeResult F)}
    (hfits : ∀ r ∈ m.values, ∃ p ∈ cfg.probes, Fits p r) : NoClash m := by
  have hkeys : ∀ r ∈ m.values, ∀ key ∈ r.metrics.keys, key = TLS_CERT_EXPIRY_DAYS := by
    intro r hr
    obtain ⟨p, -, hfit⟩ := hfits r hr
    exact hfit.metrics
  refine ⟨?_, ?_, ?_⟩
  · intro r hr key hkey
    rw [hkeys r hr key hkey, sanitizeMetricName_days]
    decide
  · intro _ r hr key hkey
    rw [hkeys r hr key hkey, sanitizeMetricName_days]
    decide
  · intro r hr
    refine List.Nodup.map_on ?_ r.metrics.nodup_keys
    intro k hk k' hk' _
    rw [hkeys r hr k hk, hkeys r hr k' hk']

/-- The document of a scrape. -/
structure ScrapeFits (cfg : AppConfig F) (doc : List Line) : Prop where
  valid : Valid doc
  nodup : ((samples doc).map seriesOf).Nodup
  known : ∀ s ∈ samples doc, seriesOf s ∈ configSeries cfg
  bounded : (samples doc).length ≤ 4 * cfg.probes.length + 8

theorem scrapeFits {cfg : AppConfig F} {m : HashMap String (ProbeResult F)} (hkeyed : Keyed m)
    (hfits : ∀ r ∈ m.values, ∃ p ∈ cfg.probes, Fits p r) (stats : WriteStats) :
    ∃ doc, read (render m stats) = some doc ∧ ScrapeFits cfg doc := by
  have hvalid := (valid_families_iff hkeyed stats).mpr (noClash_of_fits hfits)
  have hread := read_render m stats
  generalize hdoc : (families m stats).flatMap Family.lines = doc at hvalid hread
  have hnodup : ((samples doc).map seriesOf).Nodup := by
    apply List.pairwise_map.mpr
    apply hvalid.series.imp
    intro a b hne heq
    obtain ⟨hname, hlabels⟩ := Prod.mk.inj heq
    exact hne ⟨hname, by rw [hlabels]⟩
  have hknown : ∀ s ∈ samples doc, seriesOf s ∈ configSeries cfg := by
    intro s hs
    rw [← hdoc, families_eq, List.flatMap_append, samples_append, samples_probeFamilies] at hs
    rcases List.mem_append.mp hs with hs | hs
    · refine seriesOf_prescribed (fun r hr => hfits r ?_) hs
      exact mem_sortedProbes.mp hr
    · exact seriesOf_writePath cfg hs
  have hle : ((samples doc).map seriesOf).length ≤ (configSeries cfg).length := by
    apply hnodup.length_le_of_subset
    intro series hseries
    obtain ⟨s, hs, rfl⟩ := List.mem_map.mp hseries
    exact hknown s hs
  rw [List.length_map] at hle
  exact ⟨doc, hread, hvalid, hnodup, hknown, hle.trans (length_configSeries_le cfg)⟩

/-! ### A batch -/

/-- A point about a configured probe. -/
structure PointFits (cfg : AppConfig F) (pt : Point) (p : ProbeConfig F) : Prop where
  mem : p ∈ cfg.probes
  measurement : pt.measurement = "probe_result"
  tags : pt.tags = probeTags p
  fields : ∀ f ∈ pt.fields, f.1 ∈ probeFieldKeys p

theorem Fits.point {cfg : AppConfig F} {p : ProbeConfig F} {r : ProbeResult F}
    (hp : p ∈ cfg.probes) (h : Fits p r) : PointFits cfg (toPoint r) p where
  mem := hp
  measurement := rfl
  tags := by
    show [("probe_name", r.probeName), ("probe_type", r.probeType), ("target", r.target)] = _
    rw [h.probeName, h.probeType, h.target]
    rfl
  fields := by
    intro f hf
    simp only [toPoint, List.mem_append, List.mem_cons, List.not_mem_nil, or_false,
      Option.mem_toList, Option.map_eq_some_iff, List.mem_map] at hf
    unfold probeFieldKeys
    rcases hf with (((rfl | rfl) | ⟨code, hcode, rfl⟩) | ⟨err, -, rfl⟩) | ⟨e, he, rfl⟩
    · simp
    · simp
    · have htype := h.status (by rw [hcode]; exact Option.some_ne_none code)
      rcases htype with htype | htype
      · rw [htype]
        simp
      · rw [htype]
        simp
    · simp
    · have hkey : e.1 ∈ r.metrics.keys := List.mem_map_of_mem he
      have hdays : e.1 = TLS_CERT_EXPIRY_DAYS := h.metrics e.1 hkey
      rw [h.days (List.ne_nil_of_mem hkey)]
      simp [hdays]

namespace Daemon

variable {args : DaemonArgs} {s t : Daemon F} {as : List (DaemonAction F)}

/-- The batcher renders what it has received. -/
theorem batcherInv_run (hsize : 1 ≤ args.process.pipeline.batchSize)
    (h : FreeRun (step args) (new args) as s) :
    s.process.pipeline.BatcherInv args.process.pipeline := by
  refine h.invariant (I := fun s => s.process.pipeline.BatcherInv args.process.pipeline)
    (Pipeline.batcherInv_new hsize) ?_
  intro s a t hb _ hst
  cases step_to hst with
  | process b p hp =>
    refine Process.pipeline_invariant (I := fun p => p.BatcherInv args.process.pipeline) ?_ hb hp
    exact fun _ _ _ hi hpq => Pipeline.batcherInv_step hsize hi hpq
  | print | startWeb | insert | note | send => exact hb

/-- **The configuration bounds the number of series.** In every run of a loaded configuration,
whatever the targets answer: every scrape is a valid exposition of at most four samples for each
probe and the eight of the write path, no two of one series, and all of the series that the
configuration describes; and the points of every batch have the tags and fields of a configured
probe. -/
theorem series_bounded {F : Type} [F64 F] {readToString : String → Except String String}
    {fromStr : String → Except String (AppConfig F)} {env : String → EnvVar} {path : String}
    {cfg : AppConfig F} {warnings : List String}
    (hload : loadWithWarnings readToString fromStr env path = .ok (cfg, warnings))
    {args : DaemonArgs} {as : List (DaemonAction F)} {s : Daemon F}
    (hsize : 1 ≤ args.process.pipeline.batchSize) (h : FreeRun (step args) (new args) as s)
    (hsent : ∀ r ∈ s.process.hub.sent, Published cfg r) :
    (∀ w, s.web = some w → ∀ stats, ∃ doc, read (render w.state.results stats) = some doc ∧
      ScrapeFits cfg doc) ∧
    ∀ b ∈ s.process.pipeline.pushed, ∃ pts, Point.readBatch b.batch.text = some pts ∧
      ∀ pt ∈ pts, ∃ p, PointFits cfg pt p := by
  have hi := inv_run h
  refine ⟨fun w hw stats => ?_, fun b hb => ?_⟩
  · have hresults := (hi.web w hw).results
    obtain ⟨hf, -⟩ := hi.feeds w.feed (mem_subscribers.mpr (.inr (.inr ⟨w, hw, rfl⟩)))
    refine scrapeFits (keyed_of_get hresults) (fun r hr => ?_) stats
    obtain ⟨⟨name, r'⟩, he, rfl⟩ := List.mem_map.mp hr
    have hget := HashMap.mem_entries_iff.mp he
    rw [hresults] at hget
    exact fits_of_published (hsent _ (hf.mem_sent (key_of_lastTo hget).1))
  · have hbatcher := batcherInv_run hsize h
    obtain ⟨hf, -⟩ := hi.feeds s.batcher (mem_subscribers.mpr (.inr (.inl rfl)))
    have hpub : ∀ r ∈ b.results, Published cfg r := by
      intro r hr
      apply hsent
      apply hf.mem_sent
      rw [← hi.batcher.received, ← hbatcher.conserved]
      exact List.mem_append_left _ (List.mem_flatMap.mpr ⟨b, hb, hr⟩)
    have hne : b.results ≠ [] := List.ne_nil_of_length_pos (hbatcher.sizes b hb).1
    refine ⟨b.results.map toPoint, ?_, ?_⟩
    · rw [hbatcher.rendered b hb]
      exact readBatch_batchText hne fun r hr => printable_of_published hload (hpub r hr)
    · intro pt hpt
      obtain ⟨r, hr, rfl⟩ := List.mem_map.mp hpt
      obtain ⟨p, hp, hfit⟩ := fits_of_published (hpub r hr)
      exact ⟨p, hfit.point hp⟩

/-- A certificate that expires soon, in a scrape and in a batch. -/
def expiringRun : List (DaemonAction Decimal) :=
  startup ++ [.process (.tick 0), .process (.publish 0 expiring), .insert, .send, .process .recv,
    .process (.pipeline .timer), .process (.pipeline .enqueue)]

theorem series_bounded_expiring :
    ∃ s, FreeRun (step sampleDaemonArgs) (new sampleDaemonArgs) expiringRun s ∧
      (∃ w, s.web = some w ∧ ∀ stats, ∃ doc, read (render w.state.results stats) = some doc ∧
        (samples doc).length ≤ 12) ∧
      ∃ b ∈ s.process.pipeline.pushed, ∃ pts, Point.readBatch b.batch.text = some pts ∧
        ∀ pt ∈ pts, ∃ p, PointFits tlsConfig pt p := by
  have hmap : (runActions (step sampleDaemonArgs) (fun _ _ => True) (new sampleDaemonArgs)
      expiringRun).map (fun s => (s.process.hub.sent, s.process.pipeline.pushed.isEmpty,
        s.web.isSome)) = some ([expiring], false, true) := by
    decide +kernel
  obtain ⟨s, hs, hfacts⟩ := Option.map_eq_some_iff.mp hmap
  obtain ⟨hsent, hpushed, hweb⟩ : s.process.hub.sent = [expiring] ∧
      s.process.pipeline.pushed.isEmpty = false ∧ s.web.isSome = true := by
    simpa using hfacts
  have hrun := run_of_runActions _ hs
  have hpub : ∀ r ∈ s.process.hub.sent, Published tlsConfig r := by
    intro r hr
    rw [hsent, List.mem_singleton] at hr
    rw [hr]
    exact ⟨tlsProbe, List.mem_cons_self, tlsWorld, 30, execute_tlsWorld⟩
  obtain ⟨hscrape, hbatch⟩ := series_bounded load_tlsConfig (by decide) hrun hpub
  obtain ⟨w, hw⟩ := Option.isSome_iff_exists.mp hweb
  obtain ⟨b, hb⟩ := List.exists_mem_of_ne_nil _ (List.isEmpty_eq_false_iff.mp hpushed)
  refine ⟨s, hrun, ⟨w, hw, fun stats => ?_⟩, b, hb, hbatch b hb⟩
  obtain ⟨doc, hread, hfits⟩ := hscrape w hw stats
  exact ⟨doc, hread, hfits.bounded⟩

end Daemon

end Huginn.Main
