import Huginn.Core.HashMap
import Huginn.Core.Stats
import Huginn.Core.Types
import Mathlib.Data.List.Sort

/-!
# The Prometheus endpoint

`render`, which writes the latest results and the write-path counters in the text exposition format.
Each helper appends to the text written so far.
-/

namespace Huginn.Web

variable {F : Type} [F64 F]

/-- One character of a label value. -/
def escapeLabelChar (c : Char) : List Char :=
  if c = '\\' then ['\\', '\\'] else if c = '"' then ['\\', '"'] else if c = '\n' then ['\\', 'n']
  else [c]

/-- Escape a label value: backslash, double quote and newline. -/
def escapeLabel (value : String) : String := String.ofList (value.toList.flatMap escapeLabelChar)

/-- Map every character that a metric name may not have to `_`. -/
def sanitizeMetricName (key : String) : String :=
  String.ofList (key.toList.map fun c => if c.isAlphanum ∨ c = '_' ∨ c = ':' then c else '_')

/-- The line of one sample. -/
def sampleLine (name : String) (r : ProbeResult F) (value : F) : String :=
  name ++ "\x7bprobe=\"" ++ escapeLabel r.probeName ++ "\",type=\"" ++ escapeLabel r.probeType ++
    "\",target=\"" ++ escapeLabel r.target ++ "\"\x7d " ++ F64.display value ++ "\n"

/-- Append one gauge family: header once, then one sample line per probe. Families without samples
are omitted entirely. -/
def renderFamily (out name help : String) (samples : List (ProbeResult F × F)) : String :=
  let lines := samples.foldl (fun lines (r, value) => lines ++ sampleLine name r value) ""
  if lines = "" then out
  else out ++ ("# HELP " ++ name ++ " " ++ help ++ "\n# TYPE " ++ name ++ " gauge\n") ++ lines

/-- Append one unlabelled family: header, then its single sample. -/
def renderScalar (out name help kind : String) (value : F) : String :=
  out ++ ("# HELP " ++ name ++ " " ++ help ++ "\n# TYPE " ++ name ++ " " ++ kind ++ "\n") ++
    (name ++ " " ++ F64.display value ++ "\n")

/-- The write path's own numbers. -/
def renderWritePath (F : Type) [F64 F] (out : String) (stats : WriteStats) : String :=
  let out := renderScalar out "huginn_influx_queue_batches"
    "Batches currently waiting in the retry queue." "gauge" (F64.ofInt stats.queueBatches : F)
  let out := renderScalar out "huginn_influx_queue_bytes"
    "Bytes of line protocol currently waiting in the retry queue." "gauge"
    (F64.ofInt stats.queueBytes : F)
  let out := renderScalar out "huginn_influx_batches_written_total"
    "Batches InfluxDB has accepted since startup." "counter" (F64.ofInt stats.writtenBatches : F)
  let out := renderScalar out "huginn_influx_bytes_written_total"
    "Bytes of line protocol InfluxDB has accepted since startup." "counter"
    (F64.ofInt stats.writtenBytes : F)
  let out := renderScalar out "huginn_influx_batches_dropped_total"
    "Batches evicted because the retry queue was full. These measurements are lost." "counter"
    (F64.ofInt stats.droppedBatches : F)
  let out := renderScalar out "huginn_influx_bytes_dropped_total"
    "Bytes of line protocol evicted because the retry queue was full." "counter"
    (F64.ofInt stats.droppedBytes : F)
  let out := renderScalar out "huginn_influx_batches_rejected_total"
    "Batches InfluxDB refused permanently and which were discarded. These measurements are lost."
    "counter" (F64.ofInt stats.rejectedBatches : F)
  renderScalar out "huginn_influx_last_write_success_timestamp_seconds"
    "Unix timestamp of the last write InfluxDB accepted, or 0 if none has since startup." "gauge"
    (F64.ofInt stats.lastWriteSuccessUnix : F)

/-- The results, sorted by name. -/
def sortedProbes (results : HashMap String (ProbeResult F)) : List (ProbeResult F) :=
  results.values.insertionSort fun a b => a.probeName ≤ b.probeName

/-- The probe-specific readings, grouped by sanitised key. -/
def extraFamilies (probes : List (ProbeResult F)) :
    BTreeMap String (List (ProbeResult F × F)) :=
  probes.foldl (fun extra r =>
    r.metrics.entries.foldl
      (fun extra (key, value) => extra.pushAt (sanitizeMetricName key) (r, value)) extra) .empty

/-- Render the latest results and the write-path counters as Prometheus text format. -/
def render (results : HashMap String (ProbeResult F)) (stats : WriteStats) : String :=
  let probes := sortedProbes results
  let out := ""
  let out := renderFamily out "huginn_probe_success"
    "Whether the last probe run succeeded (1) or failed (0)."
    (probes.map fun r => (r, F64.ofInt (if r.up then 1 else 0)))
  let out := renderFamily out "huginn_probe_duration_seconds"
    "Duration of the last probe run in seconds."
    (probes.map fun r => (r, F64.div r.responseMs (F64.ofInt 1000)))
  let out := renderFamily out "huginn_probe_http_status_code"
    "HTTP status code of the last probe run (HTTP probes only)."
    (probes.filterMap fun r => r.statusCode.map fun c => (r, F64.ofInt c.toNat))
  let out := renderFamily out "huginn_probe_last_run_timestamp_seconds"
    "Unix timestamp of the last probe run."
    (probes.map fun r => (r, F64.ofInt r.timestamp.timestamp))
  let out := (extraFamilies probes).entries.foldl (fun out (key, samples) =>
      renderFamily out ("huginn_probe_" ++ key) ("Probe-specific reading '" ++ key ++ "'.") samples)
    out
  renderWritePath F out stats

/-! ### Which keys keep the families apart -/

/-- The map is keyed by probe name, as the event loop fills it. -/
def Keyed (results : HashMap String (ProbeResult F)) : Prop :=
  ∀ e ∈ results.entries, e.1 = e.2.probeName

/-- The condition on the metric keys under which no two families have one name: none is sanitised to
what a base family is called after `huginn_probe_`, as long as that family has samples, and no two
keys of one probe are sanitised to the same name. -/
structure NoClash (results : HashMap String (ProbeResult F)) : Prop where
  base : ∀ r ∈ results.values, ∀ key ∈ r.metrics.keys,
    sanitizeMetricName key ≠ "success" ∧ sanitizeMetricName key ≠ "duration_seconds" ∧
      sanitizeMetricName key ≠ "last_run_timestamp_seconds"
  status : (∃ r ∈ results.values, r.statusCode ≠ none) → ∀ r ∈ results.values,
    ∀ key ∈ r.metrics.keys, sanitizeMetricName key ≠ "http_status_code"
  distinct : ∀ r ∈ results.values, (r.metrics.keys.map sanitizeMetricName).Nodup

instance (results : HashMap String (ProbeResult F)) : Decidable (NoClash results) :=
  decidable_of_iff
    ((∀ r ∈ results.values, ∀ key ∈ r.metrics.keys,
      sanitizeMetricName key ≠ "success" ∧ sanitizeMetricName key ≠ "duration_seconds" ∧
        sanitizeMetricName key ≠ "last_run_timestamp_seconds") ∧
    ((∃ r ∈ results.values, r.statusCode ≠ none) → ∀ r ∈ results.values,
      ∀ key ∈ r.metrics.keys, sanitizeMetricName key ≠ "http_status_code") ∧
    ∀ r ∈ results.values, (r.metrics.keys.map sanitizeMetricName).Nodup)
    ⟨fun ⟨hbase, hstatus, hdistinct⟩ => ⟨hbase, hstatus, hdistinct⟩,
      fun h => ⟨h.base, h.status, h.distinct⟩⟩

end Huginn.Web
