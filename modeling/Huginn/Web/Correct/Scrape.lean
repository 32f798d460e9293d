import Huginn.Web.Correct.ReadBack
import Huginn.Web.State

/-!
# A scrape depends on the latest results alone

After some completed probes the map has the last result of every probe (`get_afterEvents`), under
its name. Whatever order the map iterates in, `render` sorts the results by name, and no two have
one name, so the text is determined by the last results (`render_eq_of_get`). It has exactly one
`huginn_probe_success` sample for each probe exactly when no last result has a metric of that name
(`scrape_iff`).
-/

namespace Huginn.Web

open Exposition

variable {F : Type}

/-! ### The map after some events -/

namespace WebState

theorem results_foldl_handle (events : List (ProbeResult F)) (s : WebState F) :
    ((events.map Recv.ok).foldl handle s).results =
      events.foldl (fun m r => m.insert r.probeName r) s.results := by
  induction events generalizing s with
  | nil => rfl
  | cons r events ih =>
    rw [List.map_cons, List.foldl_cons, ih, List.foldl_cons]
    rfl

/-- The map has the last result of every probe. -/
theorem get_afterEvents (events : List (ProbeResult F)) :
    (afterEvents events).results.get = lastResult events := by
  rw [afterEvents, results_foldl_handle, HashMap.get_foldl_insert]
  exact overlay_none events

end WebState

theorem keyed_of_get {m : HashMap String (ProbeResult F)} {events : List (ProbeResult F)}
    (h : m.get = lastResult events) : Keyed m :=
  HashMap.key_eq_of_get h

/-! ### Sorting by name -/

theorem probeName_inj {m : HashMap String (ProbeResult F)} (hkeyed : Keyed m)
    {a b : ProbeResult F} (ha : a ∈ m.values) (hb : b ∈ m.values)
    (h : a.probeName = b.probeName) : a = b :=
  List.inj_on_of_nodup_map (HashMap.nodup_map_values hkeyed) ha hb h

/-- There is one way to sort results by name, as no two have one name. -/
theorem sortedProbes_eq {m m' : HashMap String (ProbeResult F)} (hkeyed : Keyed m)
    (h : m.entries.Perm m'.entries) : sortedProbes m = sortedProbes m' := by
  have hvalues : m.values.Perm m'.values := h.map Prod.snd
  have hperm : (sortedProbes m).Perm (sortedProbes m') :=
    (List.perm_insertionSort _ _).trans (hvalues.trans (List.perm_insertionSort _ _).symm)
  refine hperm.eq_of_pairwise (fun a b ha hb hab hba => ?_) (pairwise_sortedProbes m)
    (pairwise_sortedProbes m')
  have ha' := mem_sortedProbes.mp ha
  have hb' := hvalues.mem_iff.mpr (mem_sortedProbes.mp hb)
  exact probeName_inj hkeyed ha' hb' (le_antisymm hab hba)

variable [F64 F]

/-- The text depends on what is looked up in the map. -/
theorem render_eq_of_get {m m' : HashMap String (ProbeResult F)} (hkeyed : Keyed m)
    (h : ∀ name, m.get name = m'.get name) (stats : WriteStats) :
    render m stats = render m' stats := by
  rw [render_eq, render_eq, probePart, probePart, sortedProbes_eq hkeyed (HashMap.perm_of_get h)]

/-! ### The samples of one family -/

/-- The sample that says whether the last run of a probe succeeded. -/
def successSample (r : ProbeResult F) : Sample :=
  sampleOf "huginn_probe_success" r (F64.ofInt (if r.up then 1 else 0))

/-- A sample that says so of this probe. -/
def isSuccessOf (name : String) (s : Sample) : Bool :=
  s.name = "huginn_probe_success" ∧ ("probe", name) ∈ s.labels

/-- The text has one success sample for each probe that occurred, from its last result. -/
def OneSuccess (events : List (ProbeResult F)) (text : String) : Prop :=
  ∃ ss, readSamples text = some ss ∧
    ∀ name, ss.filter (isSuccessOf name) = ((lastResult events name).map successSample).toList

theorem isSuccessOf_sampleOf (name family : String) (r : ProbeResult F) (value : F) :
    isSuccessOf name (sampleOf family r value) = true ↔
      family = "huginn_probe_success" ∧ r.probeName = name := by
  have hlabel : ("probe", name) ∈ labelsOf r ↔ r.probeName = name := by
    simpa [labelsOf] using eq_comm
  rw [isSuccessOf, decide_eq_true_eq]
  exact and_congr_right fun _ => hlabel

omit [F64 F] in
/-- The results with a name are what is looked up under it. -/
theorem filter_sortedProbes {m : HashMap String (ProbeResult F)} (hkeyed : Keyed m)
    (name : String) :
    (sortedProbes m).filter (fun r => r.probeName = name) = (m.get name).toList := by
  have hperm : ((sortedProbes m).filter fun r => r.probeName = name).Perm (m.get name).toList := by
    rw [← HashMap.filter_values hkeyed]
    exact (List.perm_insertionSort _ _).filter _
  cases hget : m.get name with
  | none =>
    rw [hget] at hperm
    exact List.perm_nil.mp hperm
  | some r =>
    rw [hget] at hperm
    exact List.perm_singleton.mp hperm

/-- The base families have one success sample for each probe. -/
theorem filter_prescribed (probes : List (ProbeResult F)) (keys : List String) (name : String) :
    (prescribed probes keys).filter (isSuccessOf name) =
      (probes.filter fun r => r.probeName = name).map successSample ++
        (metricSamples probes keys).filter (isSuccessOf name) := by
  have hother : ∀ family : String, family ≠ "huginn_probe_success" →
      ∀ r (value : F), isSuccessOf name (sampleOf family r value) = false := by
    intro family hne r value
    refine Bool.eq_false_iff.mpr fun h => ?_
    exact hne ((isSuccessOf_sampleOf _ _ _ _).mp h).1
  have hmap : ∀ family : String, family ≠ "huginn_probe_success" → ∀ value : ProbeResult F → F,
      (probes.map fun r => sampleOf family r (value r)).filter (isSuccessOf name) = [] := by
    intro family hne value
    refine List.filter_eq_nil_iff.mpr fun s hs => ?_
    obtain ⟨r, -, rfl⟩ := List.mem_map.mp hs
    simp [hother family hne]
  have hstatus : (probes.filterMap fun r => r.statusCode.map fun c =>
      sampleOf "huginn_probe_http_status_code" r (F64.ofInt c.toNat : F)).filter
        (isSuccessOf name) = [] := by
    refine List.filter_eq_nil_iff.mpr fun s hs => ?_
    obtain ⟨r, -, hr⟩ := List.mem_filterMap.mp hs
    obtain ⟨c, -, rfl⟩ := Option.map_eq_some_iff.mp hr
    simp [hother "huginn_probe_http_status_code" (by decide)]
  have hsuccess : (probes.map successSample).filter (isSuccessOf name) =
      (probes.filter fun r => r.probeName = name).map successSample := by
    rw [List.filter_map]
    refine congrArg _ (List.filter_congr fun r _ => Bool.eq_iff_iff.mpr ?_)
    rw [decide_eq_true_eq]
    exact (isSuccessOf_sampleOf _ _ _ _).trans (and_iff_right rfl)
  simp only [prescribed, List.filter_append]
  rw [hmap "huginn_probe_duration_seconds" (by decide), hstatus,
    hmap "huginn_probe_last_run_timestamp_seconds" (by decide), List.append_nil, List.append_nil,
    List.append_nil]
  exact congrArg (· ++ _) hsuccess

/-! ### Metrics of that name -/

/-- A key is kept where its metric name has no `_` to stand for another character. -/
theorem eq_of_sanitize {key name : String} (h : sanitizeMetricName key = name)
    (hname : '_' ∉ name.toList) : key = name := by
  have hchars : name.toList = key.toList.map fun c =>
      if c.isAlphanum ∨ c = '_' ∨ c = ':' then c else '_' := by
    rw [← h, sanitizeMetricName, String.toList_ofList]
  have hsame : ∀ c ∈ key.toList, (if c.isAlphanum ∨ c = '_' ∨ c = ':' then c else '_') = c := by
    intro c hc
    by_cases hkeep : c.isAlphanum ∨ c = '_' ∨ c = ':'
    · exact if_pos hkeep
    · refine absurd ?_ hname
      rw [hchars]
      exact List.mem_map.mpr ⟨c, hc, if_neg hkeep⟩
  rw [List.map_congr_left hsame, List.map_id'] at hchars
  exact (String.toList_inj.mp hchars).symm

theorem mem_metricSamples {probes : List (ProbeResult F)} {keys : List String} {s : Sample} :
    s ∈ metricSamples probes keys ↔ ∃ key ∈ keys, ∃ r ∈ probes, ∃ e ∈ r.metrics.entries,
      sanitizeMetricName e.1 = key ∧ sampleOf ("huginn_probe_" ++ key) r e.2 = s := by
  simp only [metricSamples, List.mem_flatMap, List.mem_map, List.mem_filter, decide_eq_true_eq,
    and_assoc]

/-- A metric of a probe is a success sample, too, when its key is `success`. -/
theorem filter_metricSamples_eq_nil_iff (probes : List (ProbeResult F)) :
    (∀ name, (metricSamples probes (extraFamilies probes).keys).filter (isSuccessOf name) = []) ↔
      ∀ r ∈ probes, "success" ∉ r.metrics.keys := by
  constructor
  · intro h r hr hkey
    obtain ⟨e, he, hsuccess⟩ := List.mem_map.mp hkey
    have hsan : sanitizeMetricName "success" = "success" := by decide
    have hkeys : "success" ∈ (extraFamilies probes).keys :=
      mem_keys_extraFamilies.mpr ⟨r, hr, "success", hkey, hsan⟩
    have hmem : sampleOf ("huginn_probe_" ++ "success") r e.2 ∈
        metricSamples probes (extraFamilies probes).keys :=
      mem_metricSamples.mpr ⟨"success", hkeys, r, hr, e, he, hsuccess ▸ hsan, rfl⟩
    refine List.filter_eq_nil_iff.mp (h r.probeName) _ hmem ?_
    exact (isSuccessOf_sampleOf _ _ _ _).mpr ⟨rfl, rfl⟩
  · intro h name
    refine List.filter_eq_nil_iff.mpr fun s hs hsuccess => ?_
    obtain ⟨key, -, r, hr, e, he, hsan, rfl⟩ := mem_metricSamples.mp hs
    have hname := ((isSuccessOf_sampleOf _ _ _ _).mp hsuccess).1
    obtain rfl : key = "success" := (probe_append_eq_iff key "success").mp hname
    have hkey : e.1 = "success" := eq_of_sanitize hsan (by decide)
    exact h r hr (hkey ▸ List.mem_map_of_mem he)

theorem filter_writePathFamilies (stats : WriteStats) (name : String) :
    (samples ((writePathFamilies F stats).flatMap Family.lines)).filter (isSuccessOf name) =
      [] := by
  refine List.filter_eq_nil_iff.mpr fun s hs hsuccess => ?_
  rw [isSuccessOf, decide_eq_true_eq] at hsuccess
  rw [samples_flatMap_lines] at hs
  obtain ⟨f, hf, hmem⟩ := List.mem_flatMap.mp hs
  obtain ⟨⟨labels, value⟩, -, rfl⟩ := List.mem_map.mp hmem
  have hnames : f.name ∈ (writePathFamilies F stats).map Family.name := List.mem_map_of_mem hf
  rw [show f.name = "huginn_probe_success" from hsuccess.1] at hnames
  exact probe_not_mem_writePathNames "success" hnames

/-! ### What a scrape says of the events -/

theorem oneSuccess_iff {events : List (ProbeResult F)} {m : HashMap String (ProbeResult F)}
    (hget : m.get = lastResult events) (stats : WriteStats) :
    OneSuccess events (render m stats) ↔
      ∀ name r, lastResult events name = some r → "success" ∉ r.metrics.keys := by
  have hkeyed := keyed_of_get hget
  have hprobes : (∀ r ∈ sortedProbes m, "success" ∉ r.metrics.keys) ↔
      ∀ name r, lastResult events name = some r → "success" ∉ r.metrics.keys := by
    constructor
    · intro h name r hr
      rw [← hget, ← HashMap.mem_entries_iff] at hr
      exact h r (mem_sortedProbes.mpr (List.mem_map_of_mem hr))
    · intro h r hr
      obtain ⟨⟨name, r'⟩, he, rfl⟩ := List.mem_map.mp (mem_sortedProbes.mp hr)
      refine h name r' ?_
      rw [← hget]
      exact HashMap.mem_entries_iff.mp he
  rw [OneSuccess, readSamples_render, ← hprobes, ← filter_metricSamples_eq_nil_iff]
  simp only [Option.some.injEq, exists_eq_left']
  refine forall_congr' fun name => ?_
  rw [List.filter_append, filter_writePathFamilies, List.append_nil, filter_prescribed,
    filter_sortedProbes hkeyed, hget, Option.toList_map]
  exact List.append_right_eq_self

/-- **A scrape depends on the last result of each probe alone**, whatever order the map iterates in,
and has one success sample for each exactly when no last result has a metric called `success`. -/
theorem scrape_iff {F : Type} [F64 F] {events events' : List (ProbeResult F)}
    {m m' : HashMap String (ProbeResult F)}
    (hlast : ∀ name, lastResult events name = lastResult events' name)
    (hm : m.entries.Perm (WebState.afterEvents events).results.entries)
    (hm' : m'.entries.Perm (WebState.afterEvents events').results.entries) (stats : WriteStats) :
    (render m stats = render m' stats ∧ OneSuccess events (render m stats)) ↔
      ∀ name r, lastResult events name = some r → "success" ∉ r.metrics.keys := by
  have hget : m.get = lastResult events := by
    rw [← WebState.get_afterEvents]
    exact funext fun name => HashMap.get_of_perm hm name
  have hget' : m'.get = lastResult events' := by
    rw [← WebState.get_afterEvents]
    exact funext fun name => HashMap.get_of_perm hm' name
  have hsame : render m stats = render m' stats :=
    render_eq_of_get (keyed_of_get hget)
      (fun name => by rw [hget, hget', hlast name]) stats
  rw [and_iff_right hsame]
  exact oneSuccess_iff hget stats

/-- A result of one probe, with a reading under a key. -/
def webResult (key : String) : ProbeResult Decimal :=
  (ProbeResult.success ⟨1700000000000000000⟩ "web" "http" "http://example.org/" (F64.ofInt 12)
    (some 200)).withMetric key (F64.ofInt 1)

theorem scrape_iff_onlyTheLast :
    render (WebState.afterEvents [webResult "a", webResult "b"]).results .default =
        render (WebState.afterEvents [webResult "b"]).results .default ∧
      OneSuccess [webResult "a", webResult "b"]
        (render (WebState.afterEvents [webResult "a", webResult "b"]).results .default) := by
  have hlast : ∀ name, lastResult [webResult "a", webResult "b"] name =
      lastResult [webResult "b"] name := by
    intro name
    by_cases h : "web" = name
    · subst h
      rfl
    · have hnone : ∀ events : List (ProbeResult Decimal), (∀ r ∈ events, r.probeName = "web") →
          lastResult events name = none := fun events hall =>
        lastTo_eq_none_iff.mpr fun r hr heq => h ((hall r hr).symm.trans heq)
      rw [hnone _ (by decide), hnone _ (by decide)]
  refine (scrape_iff hlast (.refl _) (.refl _) .default).mpr fun name r hr => ?_
  rw [hlast] at hr
  obtain rfl := List.mem_singleton.mp (key_of_lastTo hr).1
  decide

/-- A metric called `success` is a second success sample of its probe. -/
theorem success_metric_is_a_second_sample :
    ¬ OneSuccess [webResult "success"]
      (render (WebState.afterEvents [webResult "success"]).results .default) := by
  rw [oneSuccess_iff (WebState.get_afterEvents _)]
  exact fun h => h "web" (webResult "success") (by decide) (by decide)

end Huginn.Web
