import Huginn.Web.Correct.Scrape

/-!
# What a scrape says of one probe

The samples that are labelled with the name of a probe are the ones that its last result prescribes,
whatever the other results are (`readSamples_render_of`).
-/

namespace Huginn.Web

open Exposition

variable {F : Type}

/-- The sample is about the probe. -/
def isOf (name : String) (s : Sample) : Bool := s.labels.contains ("probe", name)

theorem isOf_iff {name : String} {s : Sample} : isOf name s = true ↔ ("probe", name) ∈ s.labels :=
  List.contains_iff_mem

/-! ### Samples of several results -/

/-- Samples of several results, each about the probe of its result. -/
theorem filter_isOf_flatMap {name : String} {f : ProbeResult F → List Sample}
    (hf : ∀ r, ∀ s ∈ f r, isOf name s = decide (r.probeName = name))
    (probes : List (ProbeResult F)) : (probes.flatMap f).filter (isOf name) =
      (probes.filter fun r => r.probeName = name).flatMap f := by
  induction probes with
  | nil => rfl
  | cons r probes ih =>
    rw [List.flatMap_cons, List.filter_append, ih]
    by_cases hname : r.probeName = name
    · have hall : (f r).filter (isOf name) = f r :=
        List.filter_eq_self.mpr fun s hs => (hf r s hs).trans (decide_eq_true hname)
      rw [hall, List.filter_cons_of_pos (by simpa using hname), List.flatMap_cons]
    · have hnone : (f r).filter (isOf name) = [] := by
        refine List.filter_eq_nil_iff.mpr fun s hs hof => ?_
        rw [hf r s hs] at hof
        exact hname (of_decide_eq_true hof)
      rw [hnone, List.filter_cons_of_neg (by simpa using hname), List.nil_append]

variable [F64 F]

theorem isOf_sampleOf (name family : String) (r : ProbeResult F) (value : F) :
    isOf name (sampleOf family r value) = decide (r.probeName = name) := by
  rw [Bool.eq_iff_iff, isOf_iff, decide_eq_true_iff]
  simpa [sampleOf, labelsOf] using eq_comm

/-- A family with a sample of every result. -/
theorem filter_isOf_map (name family : String) (value : ProbeResult F → F)
    (probes : List (ProbeResult F)) :
    (probes.map fun r => sampleOf family r (value r)).filter (isOf name) =
      (probes.filter fun r => r.probeName = name).map fun r => sampleOf family r (value r) := by
  rw [List.map_eq_flatMap, List.map_eq_flatMap]
  refine filter_isOf_flatMap (fun r s hs => ?_) probes
  obtain rfl := List.mem_singleton.mp hs
  exact isOf_sampleOf name family r (value r)

/-- A family with a sample of some results. -/
theorem filter_isOf_filterMap {α : Type} (name family : String) (reading : ProbeResult F → Option α)
    (value : α → F) (probes : List (ProbeResult F)) :
    (probes.filterMap fun r => (reading r).map fun a => sampleOf family r (value a)).filter
        (isOf name) =
      (probes.filter fun r => r.probeName = name).filterMap fun r =>
        (reading r).map fun a => sampleOf family r (value a) := by
  rw [List.filterMap_eq_flatMap_toList, List.filterMap_eq_flatMap_toList]
  refine filter_isOf_flatMap (fun r s hs => ?_) probes
  obtain ⟨a, -, rfl⟩ := Option.map_eq_some_iff.mp (Option.mem_toList.mp hs)
  exact isOf_sampleOf name family r (value a)

theorem filter_isOf_metricSamples (name : String) (probes : List (ProbeResult F))
    (keys : List String) : (metricSamples probes keys).filter (isOf name) =
      metricSamples (probes.filter fun r => r.probeName = name) keys := by
  unfold metricSamples
  rw [List.filter_flatMap]
  refine List.flatMap_congr fun key _ => filter_isOf_flatMap (fun r s hs => ?_) probes
  obtain ⟨e, -, rfl⟩ := List.mem_map.mp hs
  exact isOf_sampleOf name _ r e.2

/-- The samples about one probe are prescribed by the results of that name. -/
theorem filter_isOf_prescribed (probes : List (ProbeResult F)) (keys : List String)
    (name : String) : (prescribed probes keys).filter (isOf name) =
      prescribed (probes.filter fun r => r.probeName = name) keys := by
  unfold prescribed
  simp only [List.filter_append]
  rw [filter_isOf_map, filter_isOf_map, filter_isOf_map, filter_isOf_metricSamples]
  rw [filter_isOf_filterMap name "huginn_probe_http_status_code" ProbeResult.statusCode fun c =>
    F64.ofInt c.toNat]

/-! ### The text -/

/-- The samples of the write path have no labels. -/
theorem filter_isOf_writePathFamilies (stats : WriteStats) (name : String) :
    (samples ((writePathFamilies F stats).flatMap Family.lines)).filter (isOf name) = [] := by
  have hlabels : ∀ f ∈ writePathFamilies F stats, ∀ s ∈ f.samples, s.1 = [] := by
    intro f hf s hs
    simp only [writePathFamilies, List.mem_cons, List.not_mem_nil, or_false] at hf
    rcases hf with rfl | rfl | rfl | rfl | rfl | rfl | rfl | rfl <;>
      rw [List.mem_singleton.mp hs]
  refine List.filter_eq_nil_iff.mpr fun s hs hof => ?_
  rw [samples_flatMap_lines] at hs
  obtain ⟨f, hf, hmem⟩ := List.mem_flatMap.mp hs
  obtain ⟨⟨labels, value⟩, hsample, rfl⟩ := List.mem_map.mp hmem
  have hnil : labels = [] := hlabels f hf _ hsample
  have hlabel : ("probe", name) ∈ labels := isOf_iff.mp hof
  rw [hnil] at hlabel
  cases hlabel

/-- **A scrape says of a probe what its last result prescribes.** -/
theorem readSamples_render_of {m : HashMap String (ProbeResult F)} (hkeyed : Keyed m)
    (stats : WriteStats) : ∃ ss, readSamples (render m stats) = some ss ∧
      ∀ name, ss.filter (isOf name) =
        prescribed (m.get name).toList (extraFamilies (sortedProbes m)).keys := by
  refine ⟨_, readSamples_render m stats, fun name => ?_⟩
  rw [List.filter_append, filter_isOf_writePathFamilies, List.append_nil, filter_isOf_prescribed,
    filter_sortedProbes hkeyed]

end Huginn.Web
