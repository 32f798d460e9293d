import Huginn.Web.Correct.Prometheus

/-!
# What a scrape says

Reading the exposition back gives exactly the samples that the results prescribe (`prescribed`),
family by family: the probe, type and target of each are the original strings, whatever characters
they are made of (`readSamples_probePart`).
-/

namespace Huginn.Web

open Exposition

variable {F : Type} [F64 F]

/-- The sample of a result in a family. -/
def sampleOf (name : String) (r : ProbeResult F) (value : F) : Sample :=
  ⟨name, labelsOf r, F64.display value⟩

/-- The samples of the metrics, key by key. -/
def metricSamples (probes : List (ProbeResult F)) (keys : List String) : List Sample :=
  keys.flatMap fun key => probes.flatMap fun r =>
    (r.metrics.entries.filter fun e => sanitizeMetricName e.1 = key).map fun e =>
      sampleOf ("huginn_probe_" ++ key) r e.2

/-- The samples that the results prescribe: one of each base family for every probe, but for the
status only where there is one, and one for every metric under its sanitised key. -/
def prescribed (probes : List (ProbeResult F)) (keys : List String) : List Sample :=
  (probes.map fun r => sampleOf "huginn_probe_success" r (F64.ofInt (if r.up then 1 else 0))) ++
  (probes.map fun r =>
    sampleOf "huginn_probe_duration_seconds" r (F64.div r.responseMs (F64.ofInt 1000))) ++
  (probes.filterMap fun r => r.statusCode.map fun c =>
    sampleOf "huginn_probe_http_status_code" r (F64.ofInt c.toNat)) ++
  (probes.map fun r =>
    sampleOf "huginn_probe_last_run_timestamp_seconds" r (F64.ofInt r.timestamp.timestamp)) ++
  metricSamples probes keys

/-! ### The samples of the families -/

theorem samples_gaugeFamily (name help : String) (readings : List (ProbeResult F × F)) :
    samples (gaugeFamily name help readings).lines =
      readings.map fun (r, value) => sampleOf name r value := by
  rw [Family.samples_lines, gaugeFamily, List.map_map]
  rfl

/-- Families without samples can be left out. -/
theorem samples_dropEmpty (fs : List Family) :
    samples ((dropEmpty fs).flatMap Family.lines) = samples (fs.flatMap Family.lines) := by
  induction fs with
  | nil => rfl
  | cons f fs ih =>
    rw [List.flatMap_cons, samples_append, ← ih]
    cases hf : f.samples with
    | nil =>
      have hnone : samples f.lines = [] := by rw [Family.samples_lines, hf, List.map_nil]
      have hdrop : dropEmpty (f :: fs) = dropEmpty fs := by simp [dropEmpty, hf]
      rw [hnone, hdrop, List.nil_append]
    | cons s ss =>
      have hkeep : dropEmpty (f :: fs) = f :: dropEmpty fs := by simp [dropEmpty, hf]
      rw [hkeep, List.flatMap_cons, samples_append]

theorem samples_baseFamilies (probes : List (ProbeResult F)) :
    samples ((baseFamilies probes).flatMap Family.lines) = prescribed probes [] := by
  simp only [baseFamilies, List.flatMap_cons, List.flatMap_nil, samples_append,
    samples_gaugeFamily, List.map_map, List.map_filterMap, Option.map_map, prescribed,
    List.append_assoc]
  rfl

theorem samples_extraFamily {probes : List (ProbeResult F)}
    {e : String × List (ProbeResult F × F)} (he : e ∈ (extraFamilies probes).entries) :
    samples (extraFamily e).lines = probes.flatMap fun r =>
      (r.metrics.entries.filter fun m => sanitizeMetricName m.1 = e.1).map fun m =>
        sampleOf ("huginn_probe_" ++ e.1) r m.2 := by
  rw [extraFamilies_eq] at he
  rw [extraFamily, samples_gaugeFamily, BTreeMap.snd_of_mem_groupBy he, readings,
    List.filter_flatMap, List.map_flatMap, List.map_flatMap]
  refine List.flatMap_congr fun r _ => ?_
  rw [List.filter_map, List.map_map, List.map_map]
  rfl

theorem samples_extraFamilies (probes : List (ProbeResult F)) :
    samples (((extraFamilies probes).entries.map extraFamily).flatMap Family.lines) =
      metricSamples probes (extraFamilies probes).keys := by
  have hsamples : ∀ fs : List Family, samples (fs.flatMap Family.lines) =
      fs.flatMap fun f => samples f.lines := by
    intro fs
    rw [samples_flatMap_lines]
    exact List.flatMap_congr fun f _ => f.samples_lines.symm
  rw [hsamples, metricSamples, List.flatMap_map, BTreeMap.keys, List.flatMap_map]
  exact List.flatMap_congr fun e he => samples_extraFamily he

/-- The samples of the document, as the results prescribe them. -/
theorem samples_probeFamilies (results : HashMap String (ProbeResult F)) :
    samples ((probeFamilies results).flatMap Family.lines) =
      prescribed (sortedProbes results) (extraFamilies (sortedProbes results)).keys := by
  rw [probeFamilies, List.flatMap_append, samples_append, samples_dropEmpty, samples_dropEmpty,
    samples_baseFamilies, samples_extraFamilies, prescribed, prescribed]
  simp [metricSamples]

/-! ### Reading them back -/

omit [F64 F] in
theorem pairwise_sortedProbes (results : HashMap String (ProbeResult F)) :
    (sortedProbes results).Pairwise fun a b => a.probeName ≤ b.probeName := by
  have htotal : Std.Total fun a b : ProbeResult F => a.probeName ≤ b.probeName :=
    ⟨fun a b => le_total a.probeName b.probeName⟩
  have htrans : IsTrans (ProbeResult F) fun a b => a.probeName ≤ b.probeName :=
    ⟨fun _ _ _ => le_trans⟩
  exact List.pairwise_insertionSort _ _

/-- **Reading the exposition back gives the samples that went in**, family by family, with the
probes in the order of their names and the probe-specific families in the order of theirs. -/
theorem readSamples_probePart {F : Type} [F64 F] (results : HashMap String (ProbeResult F))
    (stats : WriteStats) :
    render results stats = renderWritePath F (probePart results) stats ∧
      ∃ probes keys,
        (probes.Perm results.values ∧ probes.Pairwise fun a b => a.probeName ≤ b.probeName) ∧
        (keys.Pairwise (· < ·) ∧ ∀ k, k ∈ keys ↔
          ∃ r ∈ results.values, ∃ key ∈ r.metrics.keys, sanitizeMetricName key = k) ∧
        readSamples (probePart results) = some (prescribed probes keys) := by
  refine ⟨render_eq results stats, sortedProbes results,
    (extraFamilies (sortedProbes results)).keys, ⟨List.perm_insertionSort _ _,
      pairwise_sortedProbes results⟩, ⟨?_, fun k => ?_⟩, ?_⟩
  · rw [BTreeMap.keys, List.pairwise_map]
    exact (extraFamilies _).sorted
  · rw [mem_keys_extraFamilies]
    simp only [mem_sortedProbes]
  · rw [readSamples_write probeFamilies_ok (toList_probePart results), samples_probeFamilies]

/-- Reading the whole text back gives the samples of the probes, and then the ones of the write
path. -/
theorem readSamples_render (results : HashMap String (ProbeResult F)) (stats : WriteStats) :
    readSamples (render results stats) =
      some (prescribed (sortedProbes results) (extraFamilies (sortedProbes results)).keys ++
        samples ((writePathFamilies F stats).flatMap Family.lines)) := by
  rw [readSamples_write families_ok (toList_render results stats), families_eq,
    List.flatMap_append, samples_append, samples_probeFamilies]

end Huginn.Web
