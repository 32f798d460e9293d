import Huginn.Main.Correct.Status
import Huginn.Probes.Correct.Verdict

/-!
# Both backends say how the target is

From what happens on the network to what is read back from the two backends: the point of a result
and a scrape have the verdict that the network gives (`verdict_reported`), and, for a certificate,
the days until it expires, whatever the verdict on it (`expiry_reported`).
-/

namespace Huginn.Main

open Future Influx Probes Web Exposition

variable {F : Type} [F64 F]

/-- The values of the fields of a point that have a name. -/
def fieldValues (name : String) (pt : Point) : List FieldValue :=
  (pt.fields.filter fun f => f.1 = name).map Prod.snd

/-- The values of the samples in a family that are about a probe. -/
def sampleValues (family name : String) (ss : List Sample) : List String :=
  ((ss.filter (isOf name)).filter fun s => s.name = family).map Sample.value

/-- The verdict on the target: in the result, in its point, and in the text of a scrape. -/
structure VerdictReported (healthy : Prop) (p : ProbeConfig F) (r : ProbeResult F) (text : String) :
    Prop where
  up : r.up = true ↔ healthy
  point : ∃ pt, Point.read (toLineProtocol r) = some pt ∧
    fieldValues "up" pt = [.bare (if r.up then "1i" else "0i")] ∧
      (fieldValues "error" pt = [] ↔ healthy)
  scrape : ∃ ss, readSamples text = some ss ∧
    sampleValues "huginn_probe_success" p.name ss = [if r.up then "1" else "0"]

/-- The days until a certificate expires, in the point of a result and in the text of a scrape. -/
structure ExpiryReported (days : List F) (p : ProbeConfig F) (r : ProbeResult F) (text : String) :
    Prop where
  point : ∃ pt, Point.read (toLineProtocol r) = some pt ∧
    fieldValues TLS_CERT_EXPIRY_DAYS pt = days.map fun d => .bare (F64.display d)
  scrape : ∃ ss, readSamples text = some ss ∧
    sampleValues "huginn_probe_tls_cert_expiry_days" p.name ss = days.map F64.display

/-! ### The point -/

/-- The fields that a point has besides the metrics. -/
theorem fieldValues_toPoint {r : ProbeResult F} {name : String}
    (hkeys : name ∉ r.metrics.keys) :
    fieldValues name (toPoint r) =
      fieldValues name (toPoint { r with metrics := .empty }) := by
  have hmetrics : (r.metrics.entries.map fun e => (e.1, FieldValue.bare (F64.display e.2))).filter
      (fun f => f.1 = name) = [] := by
    refine List.filter_eq_nil_iff.mpr fun f hf hname => ?_
    obtain ⟨e, he, rfl⟩ := List.mem_map.mp hf
    exact hkeys (of_decide_eq_true hname ▸ List.mem_map_of_mem he)
  have hfields : (toPoint r).fields = (toPoint { r with metrics := .empty }).fields ++
      r.metrics.entries.map fun e => (e.1, FieldValue.bare (F64.display e.2)) := by
    simp [toPoint, BTreeMap.empty]
  rw [fieldValues, hfields, List.filter_append, hmetrics, List.append_nil]
  rfl

theorem fieldValues_up (r : ProbeResult F) :
    fieldValues "up" (toPoint { r with metrics := .empty }) =
      [.bare (if r.up then "1i" else "0i")] := by
  unfold fieldValues toPoint
  cases r.statusCode <;> cases r.error <;> simp [BTreeMap.empty]

theorem fieldValues_error (r : ProbeResult F) :
    fieldValues "error" (toPoint { r with metrics := .empty }) =
      (r.error.map FieldValue.quoted).toList := by
  unfold fieldValues toPoint
  cases r.statusCode <;> cases r.error <;> simp [BTreeMap.empty]

/-- The field of the only metric that there is. -/
theorem fieldValues_days (r : ProbeResult F) (days : F)
    (h : r.metrics = BTreeMap.empty.insert TLS_CERT_EXPIRY_DAYS days) :
    fieldValues TLS_CERT_EXPIRY_DAYS (toPoint r) = [.bare (F64.display days)] := by
  have hentries : r.metrics.entries = [(TLS_CERT_EXPIRY_DAYS, days)] := by
    rw [h]
    rfl
  unfold fieldValues toPoint
  rw [hentries]
  cases r.statusCode <;> cases r.error <;> simp [TLS_CERT_EXPIRY_DAYS]

/-! ### The scrape -/

/-- A scrape has the samples of the last result. -/
theorem sampleValues_render {r : ProbeResult F} {m : HashMap String (ProbeResult F)}
    {name : String} (hkeyed : Keyed m) (hget : m.get name = some r) (stats : WriteStats)
    (family : String) : ∃ ss, readSamples (render m stats) = some ss ∧
      sampleValues family name ss =
        ((prescribed [r] (extraFamilies (sortedProbes m)).keys).filter fun s =>
          s.name = family).map Sample.value := by
  obtain ⟨ss, hread, hfilter⟩ := readSamples_render_of hkeyed stats
  refine ⟨ss, hread, ?_⟩
  rw [sampleValues, hfilter name, hget]
  rfl

/-- What only one element of a list contributes to. -/
theorem flatMap_eq_of_nodup {α β : Type} {l : List α} {a : α} {f : α → List β} (hl : l.Nodup)
    (ha : a ∈ l) (hf : ∀ b ∈ l, b ≠ a → f b = []) : l.flatMap f = f a := by
  obtain ⟨before, after, rfl⟩ := List.append_of_mem ha
  obtain ⟨-, hnodup, hdisjoint⟩ := List.nodup_append.mp hl
  have hbefore : before.flatMap f = [] := List.flatMap_eq_nil_iff.mpr fun b hb =>
    hf b (List.mem_append_left _ hb) (hdisjoint b hb a List.mem_cons_self)
  have hafter : after.flatMap f = [] := List.flatMap_eq_nil_iff.mpr fun b hb =>
    hf b (List.mem_append_right _ (List.mem_cons_of_mem _ hb))
      fun heq => (List.nodup_cons.mp hnodup).1 (heq ▸ hb)
  rw [List.flatMap_append, List.flatMap_cons, hbefore, hafter, List.append_nil, List.nil_append]

/-- The samples of the metrics, in a family: those of the keys that are sanitised to its name. -/
theorem filter_metricSamples {r : ProbeResult F} {keys : List String} (hnodup : keys.Nodup)
    {key : String} (hmem : ∀ e ∈ r.metrics.entries, sanitizeMetricName e.1 = key → key ∈ keys) :
    ((metricSamples [r] keys).filter fun s => s.name = "huginn_probe_" ++ key).map Sample.value =
      (r.metrics.entries.filter fun e => sanitizeMetricName e.1 = key).map fun e =>
        F64.display e.2 := by
  set samplesOf : String → List Sample := fun k =>
    (r.metrics.entries.filter fun e => sanitizeMetricName e.1 = k).map fun e =>
      sampleOf ("huginn_probe_" ++ k) r e.2 with hsamples
  have hflat : metricSamples [r] keys = keys.flatMap samplesOf :=
    List.flatMap_congr fun k _ => by rw [List.flatMap_singleton]
  have hname : ∀ k, ∀ s ∈ samplesOf k, s.name = "huginn_probe_" ++ k := by
    intro k s hs
    obtain ⟨e, -, rfl⟩ := List.mem_map.mp hs
    rfl
  have hother : ∀ k ∈ keys, k ≠ key →
      ((samplesOf k).filter fun s => s.name = "huginn_probe_" ++ key) = [] := by
    intro k _ hne
    refine List.filter_eq_nil_iff.mpr fun s hs hs' => hne ?_
    have heq : s.name = "huginn_probe_" ++ key := of_decide_eq_true hs'
    exact (probe_append_eq_iff k key).mp ((hname k s hs).symm.trans heq)
  rw [hflat, List.filter_flatMap]
  by_cases hkey : key ∈ keys
  · have hall : ((samplesOf key).filter fun s => s.name = "huginn_probe_" ++ key) = samplesOf key :=
      List.filter_eq_self.mpr fun s hs => decide_eq_true (hname key s hs)
    rw [flatMap_eq_of_nodup hnodup hkey hother, hall, hsamples, List.map_map]
    rfl
  · have hnone : (r.metrics.entries.filter fun e => sanitizeMetricName e.1 = key) = [] :=
      List.filter_eq_nil_iff.mpr fun e he hs => hkey (hmem e he (of_decide_eq_true hs))
    rw [hnone, List.flatMap_eq_nil_iff.mpr fun k hk => hother k hk fun heq => hkey (heq ▸ hk)]
    rfl

/-- The family of the only metric that there is. -/
theorem name_of_mem_metricSamples {r : ProbeResult F} {keys : List String}
    (hkeys : ∀ key ∈ r.metrics.keys, key = TLS_CERT_EXPIRY_DAYS) {s : Sample}
    (hs : s ∈ metricSamples [r] keys) : s.name = "huginn_probe_tls_cert_expiry_days" := by
  obtain ⟨k, -, r', hr', e, he, hsan, rfl⟩ := mem_metricSamples.mp hs
  obtain rfl := List.mem_singleton.mp hr'
  have hkey : sanitizeMetricName e.1 = "tls_cert_expiry_days" := by
    rw [hkeys e.1 (List.mem_map_of_mem he)]
    decide
  rw [← hsan, hkey]
  rfl

theorem display_up (r : ProbeResult F) :
    F64.display (F64.ofInt (if r.up then 1 else 0) : F) = if r.up then "1" else "0" := by
  have h1 : F64.display (F64.ofInt (1 : ℕ) : F) = toString 1 := F64.display_ofInt 1 (by decide)
  have h0 : F64.display (F64.ofInt (0 : ℕ) : F) = toString 0 := F64.display_ofInt 0 (by decide)
  cases r.up
  · exact h0
  · exact h1

/-- The sample of the verdict. -/
theorem filter_prescribed_success {r : ProbeResult F} {keys : List String}
    (hkeys : ∀ key ∈ r.metrics.keys, key = TLS_CERT_EXPIRY_DAYS) :
    ((prescribed [r] keys).filter fun s => s.name = "huginn_probe_success").map Sample.value =
      [if r.up then "1" else "0"] := by
  have hmetrics : (metricSamples [r] keys).filter (fun s => s.name = "huginn_probe_success") =
      [] := by
    refine List.filter_eq_nil_iff.mpr fun s hs hname => ?_
    have heq : s.name = "huginn_probe_success" := of_decide_eq_true hname
    rw [name_of_mem_metricSamples hkeys hs] at heq
    exact absurd heq (by decide)
  unfold prescribed
  rw [List.filter_append, hmetrics]
  cases r.statusCode <;> simp [sampleOf, display_up]

/-- The sample of the days. -/
theorem filter_prescribed_days (r : ProbeResult F) (keys : List String) :
    ((prescribed [r] keys).filter fun s => s.name = "huginn_probe_tls_cert_expiry_days") =
      (metricSamples [r] keys).filter fun s => s.name = "huginn_probe_tls_cert_expiry_days" := by
  unfold prescribed
  rw [List.filter_append]
  cases r.statusCode <;> simp [sampleOf]

/-! ### From the network to the backends -/

section Loaded

variable {readToString : String → Except String String}
  {fromStr : String → Except String (AppConfig F)} {env : String → EnvVar} {path : String}
  {cfg : AppConfig F} {warnings : List String} {p : ProbeConfig F} {w : World F} {t : ℕ}
  {r : ProbeResult F} {events : List (ProbeResult F)} {m : HashMap String (ProbeResult F)}

/-- **Both backends say whether the target is up.** The result is the last one of a probe of a
loaded config, whatever happened on the network and whatever else was published. A UDP target that
answers too late counts as up. -/
theorem verdict_reported
    (hload : loadWithWarnings readToString fromStr env path = .ok (cfg, warnings))
    (hp : p ∈ cfg.probes) (hrun : execute w p = .ready t r)
    (hlast : lastResult events p.name = some r)
    (hm : m.entries.Perm (WebState.afterEvents events).results.entries) (stats : WriteStats) :
    VerdictReported (Healthy w p ∨ Overdue w p) p r (render m stats) := by
  obtain ⟨hup, herror⟩ := execute_judges hrun
  have hresult := execute_resultOf w t r hrun
  have hprint := printable_of_published hload ⟨p, hp, w, t, hrun⟩
  have hread : Point.read (toLineProtocol r) = some (toPoint r) :=
    Point.read_write (toPoint_ok hprint) (toList_toLineProtocol hprint.error)
  have hget : m.get = lastResult events := by
    rw [← WebState.get_afterEvents]
    exact funext fun name => HashMap.get_of_perm hm name
  have hno : ∀ name : String, name ≠ TLS_CERT_EXPIRY_DAYS → name ∉ r.metrics.keys :=
    fun name hne hmem => hne (hresult.metrics name hmem)
  refine ⟨hup, ⟨toPoint r, hread, ?_, ?_⟩, ?_⟩
  · rw [fieldValues_toPoint (hno "up" (by decide)), fieldValues_up]
  · rw [fieldValues_toPoint (hno "error" (by decide)), fieldValues_error, ← hup, ← herror]
    cases r.error <;> simp
  · obtain ⟨ss, hsamples, hvalues⟩ := sampleValues_render (keyed_of_get hget)
      ((congrFun hget p.name).trans hlast) stats "huginn_probe_success"
    exact ⟨ss, hsamples, hvalues.trans (filter_prescribed_success hresult.metrics)⟩

/-- **Both backends have the days until a certificate expires**, as soon as there is a certificate,
whatever the verdict on it. Without one, neither has them. -/
theorem expiry_reported
    (hload : loadWithWarnings readToString fromStr env path = .ok (cfg, warnings))
    (hp : p ∈ cfg.probes) (htype : p.probeType = .tls) (hrun : execute w p = .ready t r)
    (hlast : lastResult events p.name = some r)
    (hm : m.entries.Perm (WebState.afterEvents events).results.entries) (stats : WriteStats) :
    (∀ days, DaysLeft w p days → ExpiryReported [days] p r (render m stats)) ∧
      ((∀ days, ¬ DaysLeft w p days) → ExpiryReported [] p r (render m stats)) := by
  have htls : TlsProbe.probe w p = .ready t r := by
    rw [← hrun, execute, htype]
  have hjudges := TlsProbe.judges htls
  have hprint := printable_of_published hload ⟨p, hp, w, t, hrun⟩
  have hread : Point.read (toLineProtocol r) = some (toPoint r) :=
    Point.read_write (toPoint_ok hprint) (toList_toLineProtocol hprint.error)
  have hget : m.get = lastResult events := by
    rw [← WebState.get_afterEvents]
    exact funext fun name => HashMap.get_of_perm hm name
  have hr : m.get p.name = some r := (congrFun hget p.name).trans hlast
  have hmem : r ∈ sortedProbes m :=
    mem_sortedProbes.mpr (List.mem_map_of_mem (HashMap.mem_entries_iff.mpr hr))
  obtain ⟨ss, hsamples, hvalues⟩ := sampleValues_render (keyed_of_get hget) hr stats
    "huginn_probe_tls_cert_expiry_days"
  have hfamily : sampleValues "huginn_probe_tls_cert_expiry_days" p.name ss =
      (r.metrics.entries.filter fun e => sanitizeMetricName e.1 = "tls_cert_expiry_days").map
        fun e => F64.display e.2 := by
    have hname : "huginn_probe_tls_cert_expiry_days" = "huginn_probe_" ++ "tls_cert_expiry_days" :=
      rfl
    rw [hvalues, filter_prescribed_days, hname]
    exact filter_metricSamples (BTreeMap.nodup_keys _) fun e he hsan =>
      mem_keys_extraFamilies.mpr ⟨r, hmem, e.1, List.mem_map_of_mem he, hsan⟩
  have hsan : sanitizeMetricName TLS_CERT_EXPIRY_DAYS = "tls_cert_expiry_days" := by decide
  constructor
  · intro days hdays
    have hmetrics := hjudges.days days hdays
    refine ⟨⟨toPoint r, hread, fieldValues_days r days hmetrics⟩, ss, hsamples, ?_⟩
    have hentries : r.metrics.entries = [(TLS_CERT_EXPIRY_DAYS, days)] := by
      rw [hmetrics]
      rfl
    rw [hfamily, hentries]
    simp [hsan]
  · intro hnone
    have hmetrics := hjudges.none hnone
    refine ⟨⟨toPoint r, hread, ?_⟩, ss, hsamples, ?_⟩
    · have hno : TLS_CERT_EXPIRY_DAYS ∉ r.metrics.keys := by
        rw [hmetrics]
        exact List.not_mem_nil
      rw [fieldValues_toPoint hno, fieldValues, toPoint]
      cases r.statusCode <;> cases r.error <;> simp [BTreeMap.empty, TLS_CERT_EXPIRY_DAYS]
    · rw [hfamily, hmetrics]
      rfl

end Loaded

/-! ### A certificate that expires soon -/

/-- A world in which every handshake presents a certificate with five days left. -/
def tlsWorld : World Decimal :=
  { silentWorld 0 with
    connect := fun _ => ExceptT.mk (.ready 10 (.ok ()))
    handshake := ExceptT.mk (.ready 20 (.ok (some [])))
    notAfter := fun _ => .ok 432000 }

/-- A probe that asks for two weeks. -/
def tlsProbe : ProbeConfig Decimal :=
  { (ProbeConfig.default : ProbeConfig Decimal) with
    name := "cert", probeType := .tls, target := "localhost:443"
    tlsExpiryFailDays := some ⟨14, 0⟩ }

def tlsConfig : AppConfig Decimal :=
  .ofInflux
    { InfluxConfig.default with url := "http://localhost:8086", org := "org", bucket := "bucket" }
    [tlsProbe]

/-- What is published. -/
def expiring : ProbeResult Decimal := Tls.verdict tlsWorld tlsProbe []

theorem load_tlsConfig : loadWithWarnings (fun _ => .ok "") (fun _ => .ok tlsConfig)
    (fun _ => .unset) "config.yml" = .ok (tlsConfig, []) := by
  decide +kernel

theorem execute_tlsWorld : execute tlsWorld tlsProbe = .ready 30 expiring := by
  decide +kernel

theorem verdict_reported_expiring : expiring.up = false ∧
    VerdictReported (Healthy tlsWorld tlsProbe ∨ Overdue tlsWorld tlsProbe) tlsProbe expiring
      (render (WebState.afterEvents [expiring]).results .default) :=
  ⟨by decide +kernel, verdict_reported load_tlsConfig List.mem_cons_self execute_tlsWorld
    (by decide) (.refl _) .default⟩

theorem expiry_reported_expiring :
    ∃ days : Decimal, F64.display days = "5" ∧ ExpiryReported [days] tlsProbe expiring
      (render (WebState.afterEvents [expiring]).results .default) := by
  have hdays : DaysLeft tlsWorld tlsProbe (F64.div (F64.ofInt 432000) (F64.ofInt 86400)) := by
    refine ⟨rfl, 30, by decide, [], 432000, ?_, rfl, rfl⟩
    exact ⟨"localhost", 443, by decide, rfl, 10, 20, rfl, rfl, rfl⟩
  have hlast : lastResult [expiring] tlsProbe.name = some expiring := by decide
  refine ⟨F64.div (F64.ofInt 432000) (F64.ofInt 86400), by decide, ?_⟩
  exact (expiry_reported load_tlsConfig List.mem_cons_self rfl execute_tlsWorld hlast (.refl _)
    .default).1 _ hdays

end Huginn.Main
