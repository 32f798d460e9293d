import Huginn.Lib.Exposition
import Huginn.Web.Prometheus

/-!
# When the exposition is valid

`render` writes a document of families: its text is `Exposition.write` of `families`
(`toList_render`), so it reads back as that document (`read_render`). The document is valid exactly
when no two families have one name and no family has a label set twice, which comes down to the
metric keys: `NoClash` (`valid_render_iff`).
-/

namespace Huginn.Web

open Exposition Escape

variable {F : Type} [F64 F]

/-! ### The families -/

/-- The labels of a probe. -/
def labelsOf (r : ProbeResult F) : List (String × String) :=
  [("probe", r.probeName), ("type", r.probeType), ("target", r.target)]

/-- The family that `renderFamily` appends. -/
def gaugeFamily (name help : String) (samples : List (ProbeResult F × F)) : Family where
  name := name
  help := help
  kind := "gauge"
  samples := samples.map fun (r, value) => (labelsOf r, F64.display value)

/-- The family that `renderScalar` appends. -/
def scalarFamily (name help kind : String) (value : F) : Family :=
  ⟨name, help, kind, [([], F64.display value)]⟩

def writePathFamilies (F : Type) [F64 F] (stats : WriteStats) : List Family :=
  [scalarFamily "huginn_influx_queue_batches"
      "Batches currently waiting in the retry queue." "gauge" (F64.ofInt stats.queueBatches : F),
    scalarFamily "huginn_influx_queue_bytes"
      "Bytes of line protocol currently waiting in the retry queue." "gauge"
      (F64.ofInt stats.queueBytes : F),
    scalarFamily "huginn_influx_batches_written_total"
      "Batches InfluxDB has accepted since startup." "counter" (F64.ofInt stats.writtenBatches : F),
    scalarFamily "huginn_influx_bytes_written_total"
      "Bytes of line protocol InfluxDB has accepted since startup." "counter"
      (F64.ofInt stats.writtenBytes : F),
    scalarFamily "huginn_influx_batches_dropped_total"
      "Batches evicted because the retry queue was full. These measurements are lost." "counter"
      (F64.ofInt stats.droppedBatches : F),
    scalarFamily "huginn_influx_bytes_dropped_total"
      "Bytes of line protocol evicted because the retry queue was full." "counter"
      (F64.ofInt stats.droppedBytes : F),
    scalarFamily "huginn_influx_batches_rejected_total"
      "Batches InfluxDB refused permanently and which were discarded. These measurements are lost."
      "counter" (F64.ofInt stats.rejectedBatches : F),
    scalarFamily "huginn_influx_last_write_success_timestamp_seconds"
      "Unix timestamp of the last write InfluxDB accepted, or 0 if none has since startup." "gauge"
      (F64.ofInt stats.lastWriteSuccessUnix : F)]

/-- The base families, with or without samples. -/
def baseFamilies (probes : List (ProbeResult F)) : List Family :=
  [gaugeFamily "huginn_probe_success" "Whether the last probe run succeeded (1) or failed (0)."
      (probes.map fun r => (r, F64.ofInt (if r.up then 1 else 0))),
    gaugeFamily "huginn_probe_duration_seconds" "Duration of the last probe run in seconds."
      (probes.map fun r => (r, F64.div r.responseMs (F64.ofInt 1000))),
    gaugeFamily "huginn_probe_http_status_code"
      "HTTP status code of the last probe run (HTTP probes only)."
      (probes.filterMap fun r => r.statusCode.map fun c => (r, F64.ofInt c.toNat)),
    gaugeFamily "huginn_probe_last_run_timestamp_seconds" "Unix timestamp of the last probe run."
      (probes.map fun r => (r, F64.ofInt r.timestamp.timestamp))]

def extraFamily (e : String × List (ProbeResult F × F)) : Family :=
  gaugeFamily ("huginn_probe_" ++ e.1) ("Probe-specific reading '" ++ e.1 ++ "'.") e.2

/-- Families without samples are left out. -/
def dropEmpty (fs : List Family) : List Family := fs.filter fun f => !f.samples.isEmpty

/-- The document that `render` writes. -/
def families (results : HashMap String (ProbeResult F)) (stats : WriteStats) : List Family :=
  let probes := sortedProbes results
  dropEmpty (baseFamilies probes) ++ dropEmpty ((extraFamilies probes).entries.map extraFamily) ++
    writePathFamilies F stats

/-! ### The text is the document, written -/

theorem toList_escapeLabel (value : String) :
    (escapeLabel value).toList = escape '\\' labelCode value.toList := by
  rw [escapeLabel, String.toList_ofList]
  refine List.flatMap_congr fun c _ => ?_
  unfold escapeLabelChar labelCode
  split_ifs with h1 h2 h3
  · rfl
  · rfl
  · rfl
  · rfl

theorem write_append (d e : List Line) : write (d ++ e) = write d ++ write e :=
  List.flatMap_append

theorem toList_sampleLine (name : String) (r : ProbeResult F) (value : F) :
    (sampleLine name r value).toList =
      write [.sample ⟨name, labelsOf r, F64.display value⟩] := by
  simp [sampleLine, write, Line.write, writeLabels, writeLabel, labelsOf, String.toList_append,
    toList_escapeLabel]

theorem toList_foldl_sampleLine (name : String) (samples : List (ProbeResult F × F))
    (lines : String) :
    (samples.foldl (fun lines (r, value) => lines ++ sampleLine name r value) lines).toList =
      lines.toList ++ write (samples.map fun (r, value) =>
        .sample ⟨name, labelsOf r, F64.display value⟩) := by
  induction samples generalizing lines with
  | nil => simp [write]
  | cons s samples ih =>
    rw [List.foldl_cons, ih, String.toList_append, toList_sampleLine, List.map_cons,
      List.append_assoc, ← write_append, List.singleton_append]

theorem write_ne_nil {l : Line} {doc : List Line} : write (l :: doc) ≠ [] := by
  simp [write]

theorem toList_renderFamily (out name help : String) (samples : List (ProbeResult F × F)) :
    (renderFamily out name help samples).toList =
      out.toList ++ write ((dropEmpty [gaugeFamily name help samples]).flatMap Family.lines) := by
  have hlines := toList_foldl_sampleLine name samples ""
  cases samples with
  | nil => simp [renderFamily, dropEmpty, gaugeFamily, write]
  | cons s samples =>
    have hne : (s :: samples).foldl (fun lines (r, value) => lines ++ sampleLine name r value) "" ≠
        "" := by
      intro h
      rw [h] at hlines
      exact write_ne_nil hlines.symm
    have hkeep : dropEmpty [gaugeFamily name help (s :: samples)] =
        [gaugeFamily name help (s :: samples)] := rfl
    rw [renderFamily, if_neg hne, String.toList_append, String.toList_append, hlines, hkeep]
    simp [gaugeFamily, Family.lines, write, Line.write, String.toList_append, List.flatMap_map]

theorem toList_renderScalar (out name help kind : String) (value : F) :
    (renderScalar out name help kind value).toList =
      out.toList ++ write (scalarFamily name help kind value).lines := by
  simp [renderScalar, scalarFamily, Family.lines, write, Line.write, writeLabels,
    String.toList_append]

theorem toList_foldl_renderFamily (entries : List (String × List (ProbeResult F × F)))
    (out : String) :
    (entries.foldl (fun out (key, samples) => renderFamily out ("huginn_probe_" ++ key)
      ("Probe-specific reading '" ++ key ++ "'.") samples) out).toList =
    out.toList ++ write ((dropEmpty (entries.map extraFamily)).flatMap Family.lines) := by
  induction entries generalizing out with
  | nil => simp [dropEmpty, write]
  | cons e entries ih =>
    have hsplit : dropEmpty ((e :: entries).map extraFamily) =
        dropEmpty [extraFamily e] ++ dropEmpty (entries.map extraFamily) := by
      rw [dropEmpty, dropEmpty, dropEmpty, ← List.filter_append]
      rfl
    rw [List.foldl_cons, ih, toList_renderFamily, hsplit, List.flatMap_append, write_append,
      List.append_assoc]
    rfl

/-- What `render` has written before the counters of the write path. -/
def probePart (results : HashMap String (ProbeResult F)) : String :=
  let probes := sortedProbes results
  let out := ""
  let out := renderFamily out "huginn_probe_success"
    "Whether the last probe run succeeded (1) or failed (0)."
    (probes.map fun r => (r, F64.ofInt (if r.up then 1 else 0)))
  let out := renderFamily out "huginn_probe_duration_seconds"
    "Duration of the last probe run in seconds."
    (probes.map fun r => (r, F64.div r.responseMs (F64.ofInt 1000)))
  let out := renderFamily out "huginn_probe_http_status_code"
    "HTTP status code of the last probe run (HTTP probes only)."
    (probes.filterMap fun r => r.statusCode.map fun c => (r, F64.ofInt c.toNat))
  let out := renderFamily out "huginn_probe_last_run_timestamp_seconds"
    "Unix timestamp of the last probe run."
    (probes.map fun r => (r, F64.ofInt r.timestamp.timestamp))
  (extraFamilies probes).entries.foldl (fun out (key, samples) =>
      renderFamily out ("huginn_probe_" ++ key) ("Probe-specific reading '" ++ key ++ "'.") samples)
    out

theorem render_eq (results : HashMap String (ProbeResult F)) (stats : WriteStats) :
    render results stats = renderWritePath F (probePart results) stats := rfl

/-- The part of the document that is about the probes. -/
def probeFamilies (results : HashMap String (ProbeResult F)) : List Family :=
  dropEmpty (baseFamilies (sortedProbes results)) ++
    dropEmpty ((extraFamilies (sortedProbes results)).entries.map extraFamily)

theorem families_eq (results : HashMap String (ProbeResult F)) (stats : WriteStats) :
    families results stats = probeFamilies results ++ writePathFamilies F stats := rfl

theorem toList_probePart (results : HashMap String (ProbeResult F)) :
    (probePart results).toList = write ((probeFamilies results).flatMap Family.lines) := by
  have hbase : ∀ a b c d : Family, dropEmpty [a, b, c, d] =
      dropEmpty [a] ++ dropEmpty [b] ++ dropEmpty [c] ++ dropEmpty [d] := by
    intro a b c d
    simp only [dropEmpty, ← List.filter_append]
    rfl
  simp only [probePart, toList_foldl_renderFamily, toList_renderFamily, probeFamilies, baseFamilies,
    hbase, List.flatMap_append, write_append, List.append_assoc]
  rfl

theorem toList_renderWritePath (out : String) (stats : WriteStats) :
    (renderWritePath F out stats).toList =
      out.toList ++ write ((writePathFamilies F stats).flatMap Family.lines) := by
  simp only [renderWritePath, toList_renderScalar, writePathFamilies, List.flatMap_cons,
    List.flatMap_nil, write_append, List.append_assoc]
  simp [write]

/-- **The text is the document, written.** -/
theorem toList_render (results : HashMap String (ProbeResult F)) (stats : WriteStats) :
    (render results stats).toList = write ((families results stats).flatMap Family.lines) := by
  rw [render_eq, toList_renderWritePath, toList_probePart, families_eq, List.flatMap_append,
    write_append]

/-! ### The document can be read -/

theorem isNameChar_sanitize (key : String) :
    ∀ c ∈ (sanitizeMetricName key).toList, isNameChar c = true := by
  intro c hc
  rw [sanitizeMetricName, String.toList_ofList, List.mem_map] at hc
  obtain ⟨d, -, rfl⟩ := hc
  split_ifs with h
  · simpa [isNameChar, or_assoc] using h
  · rfl

/-- Whatever the key, the name of its family is a metric name. -/
theorem nameOk_extra {key : String} (h : ∀ c ∈ key.toList, isNameChar c = true) :
    NameOk ("huginn_probe_" ++ key) := by
  refine ⟨fun hnil => ?_, fun c hc => ?_⟩
  · have := congrArg String.toList hnil
    simp [String.toList_append] at this
  · rw [String.toList_append, List.mem_append] at hc
    rcases hc with hc | hc
    · have hall : "huginn_probe_".toList.all isNameChar = true := by decide
      exact List.all_eq_true.mp hall c hc
    · exact h c hc

omit [F64 F] in
theorem labelsOf_ok (r : ProbeResult F) : ∀ l ∈ labelsOf r, NameOk l.1 := by
  intro l hl
  simp only [labelsOf, List.mem_cons, List.not_mem_nil, or_false] at hl
  rcases hl with rfl | rfl | rfl
  · show NameOk "probe"
    decide
  · show NameOk "type"
    decide
  · show NameOk "target"
    decide

theorem value_ok (x : F) : ' ' ∉ (F64.display x).toList ∧ '\n' ∉ (F64.display x).toList := by
  have hplain := F64.display_plain x
  exact ⟨fun h => (hplain _ h).1 rfl, fun h => absurd (hplain _ h).2.2.2.2 (by decide)⟩

theorem gaugeFamily_ok {name help : String} (hname : NameOk name) (hhelp : '\n' ∉ help.toList)
    (samples : List (ProbeResult F × F)) : ∀ l ∈ (gaugeFamily name help samples).lines, l.Ok := by
  intro l hl
  simp only [Family.lines, gaugeFamily, List.mem_cons, List.mem_map] at hl
  rcases hl with rfl | rfl | ⟨_, ⟨s, -, rfl⟩, rfl⟩
  · exact ⟨hname, hhelp⟩
  · exact ⟨hname, by decide⟩
  · exact ⟨hname, labelsOf_ok s.1, value_ok s.2⟩

theorem scalarFamily_ok {name help kind : String} (hname : NameOk name)
    (hhelp : '\n' ∉ help.toList) (hkind : '\n' ∉ kind.toList) (value : F) :
    ∀ l ∈ (scalarFamily name help kind value).lines, l.Ok := by
  intro l hl
  simp only [Family.lines, scalarFamily, List.map_cons, List.map_nil, List.mem_cons,
    List.not_mem_nil, or_false] at hl
  rcases hl with rfl | rfl | rfl
  · exact ⟨hname, hhelp⟩
  · exact ⟨hname, hkind⟩
  · exact ⟨hname, by simp, value_ok value⟩

/-- The readings of all probes under their sanitised keys, in the order in which they are met. -/
def readings (probes : List (ProbeResult F)) : List (String × (ProbeResult F × F)) :=
  probes.flatMap fun r => r.metrics.entries.map fun e => (sanitizeMetricName e.1, (r, e.2))

omit [F64 F] in
theorem extraFamilies_eq (probes : List (ProbeResult F)) :
    extraFamilies probes = BTreeMap.groupBy (readings probes) := by
  rw [extraFamilies, BTreeMap.groupBy, readings, List.foldl_flatMap]
  simp only [List.foldl_map]

omit [F64 F] in
theorem mem_keys_extraFamilies {probes : List (ProbeResult F)} {k : String} :
    k ∈ (extraFamilies probes).keys ↔
      ∃ r ∈ probes, ∃ key ∈ r.metrics.keys, sanitizeMetricName key = k := by
  rw [extraFamilies_eq, BTreeMap.mem_keys_groupBy]
  simp only [readings, BTreeMap.keys, List.map_flatMap, List.map_map, List.mem_flatMap,
    List.mem_map, Function.comp_apply, exists_exists_and_eq_and]

/-- No probe-specific family is left out, since each has a sample. -/
theorem dropEmpty_extra (probes : List (ProbeResult F)) :
    dropEmpty ((extraFamilies probes).entries.map extraFamily) =
      (extraFamilies probes).entries.map extraFamily := by
  rw [dropEmpty, List.filter_eq_self]
  intro f hf
  obtain ⟨e, he, rfl⟩ := List.mem_map.mp hf
  rw [extraFamilies_eq] at he
  have hne : e.2 ≠ [] := BTreeMap.snd_ne_nil_of_mem_groupBy he
  simpa [extraFamily, gaugeFamily] using hne

theorem extraFamily_ok {probes : List (ProbeResult F)}
    {e : String × List (ProbeResult F × F)} (he : e ∈ (extraFamilies probes).entries) :
    ∀ l ∈ (extraFamily e).lines, l.Ok := by
  have hkey : e.1 ∈ (extraFamilies probes).keys := List.mem_map_of_mem he
  obtain ⟨r, -, key, -, hsan⟩ := mem_keys_extraFamilies.mp hkey
  have hchars : ∀ c ∈ e.1.toList, isNameChar c = true := hsan ▸ isNameChar_sanitize key
  refine gaugeFamily_ok (nameOk_extra hchars) ?_ e.2
  -- the help text is the key between two texts that have no newline
  rw [String.toList_append, String.toList_append, List.mem_append, List.mem_append]
  rintro ((h | h) | h)
  · exact absurd h (by decide)
  · exact absurd (hchars _ h) (by decide)
  · exact absurd h (by decide)

theorem baseFamilies_ok (probes : List (ProbeResult F)) :
    ∀ f ∈ baseFamilies probes, ∀ l ∈ f.lines, l.Ok := by
  intro f hf
  simp only [baseFamilies, List.mem_cons, List.not_mem_nil, or_false] at hf
  rcases hf with rfl | rfl | rfl | rfl
  all_goals exact gaugeFamily_ok (by decide +kernel) (by decide +kernel) _

theorem writePathFamilies_ok (stats : WriteStats) :
    ∀ f ∈ writePathFamilies F stats, ∀ l ∈ f.lines, l.Ok := by
  intro f hf
  simp only [writePathFamilies, List.mem_cons, List.not_mem_nil, or_false] at hf
  rcases hf with rfl | rfl | rfl | rfl | rfl | rfl | rfl | rfl
  all_goals exact scalarFamily_ok (by decide +kernel) (by decide +kernel) (by decide +kernel) _

theorem probeFamilies_ok {results : HashMap String (ProbeResult F)} :
    ∀ l ∈ (probeFamilies results).flatMap Family.lines, l.Ok := by
  intro l hl
  obtain ⟨f, hf, hmem⟩ := List.mem_flatMap.mp hl
  rw [probeFamilies, dropEmpty_extra, List.mem_append] at hf
  rcases hf with hbase | hextra
  · exact baseFamilies_ok _ f (List.mem_filter.mp hbase).1 l hmem
  · obtain ⟨e, he, rfl⟩ := List.mem_map.mp hextra
    exact extraFamily_ok he l hmem

theorem families_ok {results : HashMap String (ProbeResult F)} {stats : WriteStats} :
    ∀ l ∈ (families results stats).flatMap Family.lines, l.Ok := by
  intro l hl
  rw [families_eq, List.flatMap_append, List.mem_append] at hl
  rcases hl with hprobe | hwrite
  · exact probeFamilies_ok l hprobe
  · obtain ⟨f, hf, hmem⟩ := List.mem_flatMap.mp hwrite
    exact writePathFamilies_ok stats f hf l hmem

/-- **Whatever the results are, the text reads back as the document of its families.** -/
theorem read_render (results : HashMap String (ProbeResult F)) (stats : WriteStats) :
    read (render results stats) = some ((families results stats).flatMap Family.lines) :=
  read_write families_ok (toList_render results stats)

/-! ### The label sets -/

omit [F64 F] in
/-- Probes with one label set have one name. -/
theorem probeName_of_labelsOf {r r' : ProbeResult F}
    (h : (labelsOf r).toFinset = (labelsOf r').toFinset) : r.probeName = r'.probeName := by
  have hmem : ("probe", r.probeName) ∈ (labelsOf r').toFinset := by
    rw [← h]
    simp [labelsOf]
  simpa [labelsOf] using hmem

/-- The samples of a family with one label set for each. -/
def Distinct (samples : List (ProbeResult F × F)) : Prop :=
  samples.Pairwise fun a b => (labelsOf a.1).toFinset ≠ (labelsOf b.1).toFinset

theorem distinct_iff (name help : String) (samples : List (ProbeResult F × F)) :
    ((gaugeFamily name help samples).samples.Pairwise fun a b => a.1.toFinset ≠ b.1.toFinset) ↔
      Distinct samples := by
  rw [gaugeFamily, List.pairwise_map]
  rfl

omit [F64 F] in
theorem distinct_of_nodup {samples : List (ProbeResult F × F)}
    (h : (samples.map fun s => s.1.probeName).Nodup) : Distinct samples :=
  (List.pairwise_map.mp h).imp fun hne heq => hne (probeName_of_labelsOf heq)

omit [F64 F] in
/-- The results have distinct names, as the keys of the map are distinct. -/
theorem nodup_sortedProbes {results : HashMap String (ProbeResult F)} (hkeyed : Keyed results) :
    ((sortedProbes results).map ProbeResult.probeName).Nodup := by
  have hperm : (sortedProbes results).Perm results.values := List.perm_insertionSort _ _
  exact (hperm.map _).nodup_iff.mpr (HashMap.nodup_map_values hkeyed)

omit [F64 F] in
theorem mem_sortedProbes {results : HashMap String (ProbeResult F)} {r : ProbeResult F} :
    r ∈ sortedProbes results ↔ r ∈ results.values :=
  List.mem_insertionSort _

theorem baseFamilies_distinct {probes : List (ProbeResult F)}
    (h : (probes.map ProbeResult.probeName).Nodup) :
    ∀ f ∈ baseFamilies probes, f.samples.Pairwise fun a b => a.1.toFinset ≠ b.1.toFinset := by
  have hall : ∀ value : ProbeResult F → F, Distinct (probes.map fun r => (r, value r)) := by
    intro value
    refine distinct_of_nodup ?_
    rw [List.map_map]
    exact h
  have hstatus : Distinct (probes.filterMap fun r =>
      r.statusCode.map fun c => (r, (F64.ofInt c.toNat : F))) := by
    refine distinct_of_nodup (List.Sublist.nodup ?_ h)
    clear h hall
    induction probes with
    | nil => exact .slnil
    | cons r probes ih =>
      cases hcode : r.statusCode with
      | none => simpa [List.filterMap_cons, hcode] using ih.cons r.probeName
      | some c => simpa [List.filterMap_cons, hcode] using ih
  intro f hf
  simp only [baseFamilies, List.mem_cons, List.not_mem_nil, or_false] at hf
  rcases hf with rfl | rfl | rfl | rfl
  · exact (distinct_iff _ _ _).mpr (hall _)
  · exact (distinct_iff _ _ _).mpr (hall _)
  · exact (distinct_iff _ _ _).mpr hstatus
  · exact (distinct_iff _ _ _).mpr (hall _)

omit [F64 F] in
/-- The probe-specific families have one label set for each sample exactly when no two keys of one
probe are sanitised to one name. -/
theorem extra_distinct_iff {probes : List (ProbeResult F)}
    (h : (probes.map ProbeResult.probeName).Nodup) :
    (∀ e ∈ (extraFamilies probes).entries, Distinct e.2) ↔
      ∀ r ∈ probes, (r.metrics.keys.map sanitizeMetricName).Nodup := by
  have hwithin : ∀ r : ProbeResult F,
      (r.metrics.entries.map fun e => (sanitizeMetricName e.1, (r, e.2))).Pairwise (fun a b =>
        a.1 = b.1 → (labelsOf a.2.1).toFinset ≠ (labelsOf b.2.1).toFinset) ↔
      (r.metrics.keys.map sanitizeMetricName).Nodup := by
    intro r
    -- the samples of one probe have one label set
    rw [BTreeMap.keys, List.Nodup, List.pairwise_map, List.pairwise_map, List.pairwise_map]
    simp
  have hbetween : probes.Pairwise fun r r' =>
      ∀ a ∈ r.metrics.entries.map (fun e => (sanitizeMetricName e.1, (r, e.2))),
      ∀ b ∈ r'.metrics.entries.map (fun e => (sanitizeMetricName e.1, (r', e.2))),
        a.1 = b.1 → (labelsOf a.2.1).toFinset ≠ (labelsOf b.2.1).toFinset := by
    refine (List.pairwise_map.mp h).imp fun hne a ha b hb _ heq => ?_
    obtain ⟨_, -, rfl⟩ := List.mem_map.mp ha
    obtain ⟨_, -, rfl⟩ := List.mem_map.mp hb
    exact hne (probeName_of_labelsOf heq)
  simp only [extraFamilies_eq, Distinct]
  rw [BTreeMap.pairwise_groupBy_iff, readings, List.pairwise_flatMap, and_iff_left hbetween]
  exact forall₂_congr fun r _ => hwithin r

/-! ### The names -/

/-- The base families that are written. -/
theorem mem_names_base {probes : List (ProbeResult F)} {name : String} :
    name ∈ (dropEmpty (baseFamilies probes)).map Family.name ↔
      probes ≠ [] ∧ (name = "huginn_probe_success" ∨ name = "huginn_probe_duration_seconds" ∨
        name = "huginn_probe_last_run_timestamp_seconds") ∨
      (∃ r ∈ probes, r.statusCode ≠ none) ∧ name = "huginn_probe_http_status_code" := by
  have hstatus : (probes.filterMap fun r =>
      r.statusCode.map fun c => (r, (F64.ofInt c.toNat : F))) ≠ [] ↔
        ∃ r ∈ probes, r.statusCode ≠ none := by
    rw [Ne, List.filterMap_eq_nil_iff]
    simp
  rw [← hstatus]
  simp only [dropEmpty, baseFamilies, gaugeFamily, List.mem_map, List.mem_filter, List.mem_cons,
    List.not_mem_nil, or_false]
  constructor
  · rintro ⟨f, ⟨rfl | rfl | rfl | rfl, hne⟩, rfl⟩
    · exact .inl ⟨by simpa using hne, .inl rfl⟩
    · exact .inl ⟨by simpa using hne, .inr (.inl rfl)⟩
    · exact .inr ⟨by simpa using hne, rfl⟩
    · exact .inl ⟨by simpa using hne, .inr (.inr rfl)⟩
  · rintro (⟨hne, rfl | rfl | rfl⟩ | ⟨hne, rfl⟩)
    · exact ⟨_, ⟨.inl rfl, by simpa using hne⟩, rfl⟩
    · exact ⟨_, ⟨.inr (.inl rfl), by simpa using hne⟩, rfl⟩
    · exact ⟨_, ⟨.inr (.inr (.inr rfl)), by simpa using hne⟩, rfl⟩
    · exact ⟨_, ⟨.inr (.inr (.inl rfl)), by simpa using hne⟩, rfl⟩

theorem nodup_names_base (probes : List (ProbeResult F)) :
    ((dropEmpty (baseFamilies probes)).map Family.name).Nodup := by
  have hsub : (dropEmpty (baseFamilies probes)).Sublist (baseFamilies probes) :=
    List.filter_sublist
  have hnames : (baseFamilies probes).map Family.name = ["huginn_probe_success",
      "huginn_probe_duration_seconds", "huginn_probe_http_status_code",
      "huginn_probe_last_run_timestamp_seconds"] := rfl
  refine (hsub.map Family.name).nodup ?_
  rw [hnames]
  decide +kernel

omit [F64 F] in
theorem nodup_names_extra (probes : List (ProbeResult F)) :
    ((extraFamilies probes).keys.map ("huginn_probe_" ++ ·)).Nodup := by
  refine List.Nodup.map (fun a b heq => ?_) (BTreeMap.nodup_keys _)
  have hlist := congrArg String.toList heq
  rw [String.toList_append, String.toList_append, List.append_cancel_left_eq] at hlist
  exact String.toList_inj.mp hlist

theorem names_extra (probes : List (ProbeResult F)) :
    ((extraFamilies probes).entries.map extraFamily).map Family.name =
      (extraFamilies probes).keys.map ("huginn_probe_" ++ ·) := by
  rw [BTreeMap.keys, List.map_map, List.map_map]
  rfl

def writePathNames : List String :=
  ["huginn_influx_queue_batches", "huginn_influx_queue_bytes",
    "huginn_influx_batches_written_total", "huginn_influx_bytes_written_total",
    "huginn_influx_batches_dropped_total", "huginn_influx_bytes_dropped_total",
    "huginn_influx_batches_rejected_total", "huginn_influx_last_write_success_timestamp_seconds"]

theorem nodup_writePathNames : writePathNames.Nodup := by decide +kernel

/-- The prefix of the probe families and that of the write path differ. -/
theorem probe_not_mem_writePathNames (key : String) : "huginn_probe_" ++ key ∉ writePathNames := by
  have hall : ∀ name ∈ writePathNames, name.toList.take 8 = "huginn_i".toList := by decide +kernel
  intro hmem
  have hprefix := hall _ hmem
  rw [String.toList_append, List.take_append_of_le_length (by decide)] at hprefix
  exact absurd hprefix (by decide)

theorem probe_append_eq_iff (key base : String) :
    "huginn_probe_" ++ key = "huginn_probe_" ++ base ↔ key = base := by
  rw [← String.toList_inj, String.toList_append, String.toList_append, List.append_cancel_left_eq,
    String.toList_inj]

/-- The names are distinct exactly when no key is sanitised to what a base family that is written is
called after `huginn_probe_`. -/
theorem nodup_names_iff (results : HashMap String (ProbeResult F)) (stats : WriteStats) :
    ((families results stats).map Family.name).Nodup ↔
      ∀ key ∈ (extraFamilies (sortedProbes results)).keys,
        "huginn_probe_" ++ key ∉
          (dropEmpty (baseFamilies (sortedProbes results))).map Family.name := by
  have hwrite : (writePathFamilies F stats).map Family.name = writePathNames := rfl
  have hbase : ∀ name ∈ (dropEmpty (baseFamilies (sortedProbes results))).map Family.name,
      ∃ key, name = "huginn_probe_" ++ key := by
    intro name hname
    rcases mem_names_base.mp hname with ⟨-, rfl | rfl | rfl⟩ | ⟨-, rfl⟩
    · exact ⟨"success", rfl⟩
    · exact ⟨"duration_seconds", rfl⟩
    · exact ⟨"last_run_timestamp_seconds", rfl⟩
    · exact ⟨"http_status_code", rfl⟩
  rw [families, dropEmpty_extra, List.map_append, List.map_append, names_extra, hwrite,
    List.nodup_append, List.nodup_append]
  constructor
  · rintro ⟨⟨-, -, hdisjoint⟩, -, -⟩ key hkey hmem
    exact hdisjoint _ hmem _ (List.mem_map_of_mem hkey) rfl
  · intro h
    refine ⟨⟨nodup_names_base _, nodup_names_extra _, ?_⟩, nodup_writePathNames, ?_⟩
    · rintro a ha b hb rfl
      obtain ⟨key, hkey, rfl⟩ := List.mem_map.mp hb
      exact h key hkey ha
    · rintro a ha b hb rfl
      rcases List.mem_append.mp ha with ha | ha
      · obtain ⟨key, rfl⟩ := hbase a ha
        exact probe_not_mem_writePathNames key hb
      · obtain ⟨key, -, rfl⟩ := List.mem_map.mp ha
        exact probe_not_mem_writePathNames key hb

theorem names_apart_iff (probes : List (ProbeResult F)) :
    (∀ key ∈ (extraFamilies probes).keys,
        "huginn_probe_" ++ key ∉ (dropEmpty (baseFamilies probes)).map Family.name) ↔
      (∀ r ∈ probes, ∀ key ∈ r.metrics.keys,
        sanitizeMetricName key ≠ "success" ∧ sanitizeMetricName key ≠ "duration_seconds" ∧
          sanitizeMetricName key ≠ "last_run_timestamp_seconds") ∧
      ((∃ r ∈ probes, r.statusCode ≠ none) → ∀ r ∈ probes, ∀ key ∈ r.metrics.keys,
        sanitizeMetricName key ≠ "http_status_code") := by
  have hbase : ∀ key, "huginn_probe_" ++ key ∈ (dropEmpty (baseFamilies probes)).map Family.name ↔
      probes ≠ [] ∧ (key = "success" ∨ key = "duration_seconds" ∨
        key = "last_run_timestamp_seconds") ∨
      (∃ r ∈ probes, r.statusCode ≠ none) ∧ key = "http_status_code" := by
    intro key
    rw [mem_names_base]
    simp only [← probe_append_eq_iff key]
    rfl
  constructor
  · intro h
    have hkey : ∀ r ∈ probes, ∀ key ∈ r.metrics.keys,
        sanitizeMetricName key ∈ (extraFamilies probes).keys := fun r hr key hmem =>
      mem_keys_extraFamilies.mpr ⟨r, hr, key, hmem, rfl⟩
    constructor
    · intro r hr key hmem
      have hnot := h _ (hkey r hr key hmem)
      rw [hbase] at hnot
      have hne : probes ≠ [] := List.ne_nil_of_mem hr
      exact ⟨fun heq => hnot (.inl ⟨hne, .inl heq⟩), fun heq => hnot (.inl ⟨hne, .inr (.inl heq)⟩),
        fun heq => hnot (.inl ⟨hne, .inr (.inr heq)⟩)⟩
    · intro hcode r hr key hmem heq
      have hnot := h _ (hkey r hr key hmem)
      rw [hbase] at hnot
      exact hnot (.inr ⟨hcode, heq⟩)
  · rintro ⟨hprobe, hstatus⟩ k hk hmem
    obtain ⟨r, hr, key, hkey, rfl⟩ := mem_keys_extraFamilies.mp hk
    obtain ⟨hsuccess, hduration, hlast⟩ := hprobe r hr key hkey
    rcases (hbase _).mp hmem with ⟨-, heq | heq | heq⟩ | ⟨hcode, heq⟩
    · exact hsuccess heq
    · exact hduration heq
    · exact hlast heq
    · exact hstatus hcode r hr key hkey heq

/-! ### Validity -/

theorem distinct_families_iff {results : HashMap String (ProbeResult F)} (hkeyed : Keyed results)
    (stats : WriteStats) :
    (∀ f ∈ families results stats,
        f.samples.Pairwise fun a b => a.1.toFinset ≠ b.1.toFinset) ↔
      ∀ r ∈ results.values, (r.metrics.keys.map sanitizeMetricName).Nodup := by
  have hnodup := nodup_sortedProbes hkeyed
  have hextra := extra_distinct_iff hnodup
  simp only [mem_sortedProbes] at hextra
  rw [← hextra, families, dropEmpty_extra]
  constructor
  · intro h e he
    refine (distinct_iff ("huginn_probe_" ++ e.1) ("Probe-specific reading '" ++ e.1 ++ "'.")
      e.2).mp (h (extraFamily e) ?_)
    exact List.mem_append_left _ (List.mem_append_right _ (List.mem_map_of_mem he))
  · intro h f hf
    rcases List.mem_append.mp hf with hf | hf
    · rcases List.mem_append.mp hf with hf | hf
      · exact baseFamilies_distinct hnodup f (List.mem_filter.mp hf).1
      · obtain ⟨e, he, rfl⟩ := List.mem_map.mp hf
        exact (distinct_iff _ _ _).mpr (h e he)
    · -- an unlabelled family has one sample
      simp only [writePathFamilies, List.mem_cons, List.not_mem_nil, or_false] at hf
      rcases hf with rfl | rfl | rfl | rfl | rfl | rfl | rfl | rfl
      all_goals exact List.pairwise_singleton _ _

/-- The document is valid exactly when the metric keys keep the families apart. -/
theorem valid_families_iff {results : HashMap String (ProbeResult F)} (hkeyed : Keyed results)
    (stats : WriteStats) :
    Valid ((families results stats).flatMap Family.lines) ↔ NoClash results := by
  rw [valid_flatMap_lines_iff, nodup_names_iff, distinct_families_iff hkeyed, names_apart_iff]
  simp only [mem_sortedProbes]
  constructor
  · rintro ⟨⟨hbase, hstatus⟩, hdistinct⟩
    exact ⟨hbase, hstatus, hdistinct⟩
  · intro h
    exact ⟨⟨h.base, h.status⟩, h.distinct⟩

/-- **The exposition is valid exactly when the metric keys keep the families apart.** -/
theorem valid_render_iff {results : HashMap String (ProbeResult F)} (hkeyed : Keyed results)
    (stats : WriteStats) :
    (∃ doc, read (render results stats) = some doc ∧ Valid doc) ↔ NoClash results := by
  rw [read_render, ← valid_families_iff hkeyed stats]
  simp only [Option.some.injEq, exists_eq_left']

/-- The latest result of one probe, with a reading under a key. -/
def resultsOfKey (key : String) : HashMap String (ProbeResult Decimal) :=
  ⟨[("web", (ProbeResult.success ⟨1700000000000000000⟩ "web" "http" "http://example.org/"
    (F64.ofInt 12) (some 200)).withMetric key (F64.ofInt 1))], List.nodup_singleton _⟩

theorem keyed_resultsOfKey (key : String) : Keyed (resultsOfKey key) := by
  intro e he
  rw [List.mem_singleton.mp he]
  rfl

theorem valid_render_iff_cert_expiry :
    (∃ doc, read (render (resultsOfKey TLS_CERT_EXPIRY_DAYS) .default) = some doc ∧ Valid doc) ∧
      NoClash (resultsOfKey TLS_CERT_EXPIRY_DAYS) := by
  have hno : NoClash (resultsOfKey TLS_CERT_EXPIRY_DAYS) := by decide +kernel
  exact ⟨(valid_render_iff (keyed_resultsOfKey _) _).mpr hno, hno⟩

/-- A reading under the key `success` makes a second family `huginn_probe_success`. -/
theorem success_key_duplicates_a_family : Keyed (resultsOfKey "success") ∧
    ¬ ∃ doc, read (render (resultsOfKey "success") .default) = some doc ∧ Valid doc := by
  refine ⟨keyed_resultsOfKey _, ?_⟩
  rintro ⟨doc, hread, hvalid⟩
  obtain rfl := Option.some.inj ((read_render _ _).symm.trans hread)
  have hno := (valid_families_iff (keyed_resultsOfKey _) _).mp hvalid
  exact (hno.base _ List.mem_cons_self "success" List.mem_cons_self).1 (by decide)

end Huginn.Web
