import Huginn.Core.Correct.Load
import Huginn.Influx.Correct.LineProtocol
import Huginn.Probes.Correct.Executors

/-!
# Batches are framed correctly

What the probes of a loaded config publish has no control character in any of its texts: loading
takes them out of the names and targets, and `ProbeResult::failure` out of the errors. So a line
of line protocol has no newline in it, and the lines of a batch are its points.
-/

namespace Huginn.Influx

open Escape Probes

variable {F : Type} [F64 F]

/-! ### What is published -/

theorem display_ok (t : ProbeType) : t.display ≠ "" ∧ ControlFree t.display := by
  cases t <;> decide

/-- A result of a valid probe without control characters is printable. -/
theorem printable_of_resultOf {p : ProbeConfig F} (hvalid : p.Valid) (hfree : p.ControlFree)
    {r : ProbeResult F} (hr : ResultOf p r) : Printable r where
  probeName := hr.probeName ▸ ⟨hvalid.name_ne, hfree.name⟩
  probeType := hr.probeType ▸ display_ok p.probeType
  target := hr.target ▸ ⟨hvalid.target_ne, hfree.target⟩
  error := hr.error
  metrics := by
    intro key hkey
    rw [hr.metrics key hkey]
    decide

section Load

variable {readToString : String → Except String String}
  {fromStr : String → Except String (AppConfig F)} {env : String → EnvVar} {path : String}

/-- **What the probes of a loaded config publish is printable.** -/
theorem printable_of_published {cfg : AppConfig F} {warnings : List String}
    (hload : loadWithWarnings readToString fromStr env path = .ok (cfg, warnings))
    {r : ProbeResult F} (hr : Published cfg r) : Printable r := by
  obtain ⟨hvalid, hfree⟩ := loadWithWarnings_ok hload
  obtain ⟨p, hp, hresult⟩ := hr.resultOf
  exact printable_of_resultOf (hvalid.probes p hp) (hfree p hp) hresult

end Load

/-! ### Lines -/

theorem newline_not_mem_of_controlFree {s : String} (h : ControlFree s) : '\n' ∉ s.toList := by
  intro hmem
  exact absurd (h '\n' hmem) (by decide)

theorem newline_not_mem_of_plainText {s : String} (h : PlainText s) : '\n' ∉ s.toList := by
  intro hmem
  exact absurd (h '\n' hmem) (by decide)

/-- Escaping to the character itself makes no newline. -/
theorem newline_not_mem_escape {special : Char → Bool} {cs : List Char} (h : '\n' ∉ cs) :
    '\n' ∉ escape '\\' (literally special) cs := by
  intro hmem
  rcases mem_of_mem_escape hmem with heq | ⟨hcs, -⟩ | ⟨c, hc, hcode⟩
  · exact absurd heq (by decide)
  · exact h hcs
  · -- the code of a special character is that character
    unfold literally at hcode
    split_ifs at hcode
    exact h (Option.some.inj hcode ▸ hc)

theorem newline_not_mem_writeName {s : String} (h : '\n' ∉ s.toList) :
    '\n' ∉ Point.writeName s :=
  newline_not_mem_escape h

theorem newline_not_mem_writeField {f : String × FieldValue} (hkey : '\n' ∉ f.1.toList)
    (hvalue : '\n' ∉ f.2.text.toList) : '\n' ∉ Point.writeField f := by
  rw [Point.writeField, List.mem_append, List.mem_cons]
  rintro (h | h | h)
  · exact newline_not_mem_writeName hkey h
  · exact absurd h (by decide)
  · obtain ⟨key, text | text⟩ := f
    · exact hvalue h
    · rw [Point.writeValue, List.mem_cons, List.mem_append, List.mem_singleton] at h
      rcases h with h | h | h
      · exact absurd h (by decide)
      · exact newline_not_mem_escape hvalue h
      · exact absurd h (by decide)

/-- A point without newlines in its names and values is written on one line. -/
theorem newline_not_mem_write {p : Point} (hmeasurement : '\n' ∉ p.measurement.toList)
    (htags : ∀ t ∈ p.tags, '\n' ∉ t.1.toList ∧ '\n' ∉ t.2.toList)
    (hfields : ∀ f ∈ p.fields, '\n' ∉ f.1.toList ∧ '\n' ∉ f.2.text.toList) : '\n' ∉ p.write := by
  have htag : ∀ t ∈ p.tags, '\n' ∉ Point.writeTag t := by
    intro t ht
    rw [Point.writeTag, List.mem_cons, List.mem_append, List.mem_cons]
    rintro (h | h | h | h)
    · exact absurd h (by decide)
    · exact newline_not_mem_writeName (htags t ht).1 h
    · exact absurd h (by decide)
    · exact newline_not_mem_writeName (htags t ht).2 h
  have hwrite : '\n' ∉ Point.writeFields p.fields := by
    have hfield := fun f hf => newline_not_mem_writeField (hfields f hf).1 (hfields f hf).2
    cases hcons : p.fields with
    | nil => exact List.not_mem_nil
    | cons f fs =>
      rw [hcons] at hfield
      rw [writeFields_cons, List.mem_append, List.mem_flatMap]
      rintro (h | ⟨g, hg, h⟩)
      · exact hfield f List.mem_cons_self h
      · rcases List.mem_cons.mp h with h | h
        · exact absurd h (by decide)
        · exact hfield g (List.mem_cons_of_mem f hg) h
  rw [Point.write, List.mem_append, List.mem_append, List.mem_flatMap, List.mem_cons,
    List.mem_append, List.mem_cons]
  rintro (h | ⟨t, ht, h⟩ | h | h | h | h)
  · exact newline_not_mem_writeName hmeasurement h
  · exact htag t ht h
  · exact absurd h (by decide)
  · exact hwrite h
  · exact absurd h (by decide)
  · exact newline_not_mem_of_plainText (plainText_int _) h

theorem newline_not_mem_toLineProtocol {r : ProbeResult F} (hr : Printable r) :
    '\n' ∉ (toLineProtocol r).toList := by
  have hnames : ∀ s ∈ ["probe_result", "probe_name", "probe_type", "target", "up", "response_ms",
      "status_code", "error"], '\n' ∉ s.toList := by decide +kernel
  rw [toList_toLineProtocol hr.error]
  refine newline_not_mem_write (hnames _ (by simp [toPoint])) (fun t ht => ?_) fun f hf => ?_
  · simp only [toPoint, List.mem_cons, List.not_mem_nil, or_false] at ht
    rcases ht with rfl | rfl | rfl
    · exact ⟨hnames _ (by simp), newline_not_mem_of_controlFree hr.probeName.2⟩
    · exact ⟨hnames _ (by simp), newline_not_mem_of_controlFree hr.probeType.2⟩
    · exact ⟨hnames _ (by simp), newline_not_mem_of_controlFree hr.target.2⟩
  · have hfields := (toPoint_ok hr).fields f hf
    simp only [toPoint, List.mem_append, List.mem_cons, List.not_mem_nil, or_false,
      Option.mem_toList, Option.map_eq_some_iff, List.mem_map] at hf
    rcases hf with (((rfl | rfl) | ⟨code, -, rfl⟩) | ⟨err, herr, rfl⟩) | ⟨e, he, rfl⟩
    · exact ⟨hnames _ (by simp), newline_not_mem_of_plainText hfields.2⟩
    · exact ⟨hnames _ (by simp), newline_not_mem_of_plainText hfields.2⟩
    · exact ⟨hnames _ (by simp), newline_not_mem_of_plainText hfields.2⟩
    · exact ⟨hnames _ (by simp), newline_not_mem_of_controlFree (hr.error err herr)⟩
    · have hkey := (hr.metrics e.1 (List.mem_map_of_mem he)).2
      exact ⟨newline_not_mem_of_controlFree hkey, newline_not_mem_of_plainText hfields.2⟩

/-- The lines of a batch are the points of its results. -/
theorem splitOn_batchText {rs : List (ProbeResult F)} (hne : rs ≠ [])
    (hrs : ∀ r ∈ rs, Printable r) :
    (batchText rs).toList.splitOn '\n' = rs.map fun r => (toLineProtocol r).toList := by
  have hjoin : (batchText rs).toList =
      List.intercalate ['\n'] (rs.map fun r => (toLineProtocol r).toList) := by
    rw [batchText, String.toList_intercalate, List.map_map]
    rfl
  rw [hjoin, List.splitOn_intercalate]
  · intro line hline
    obtain ⟨r, hr, rfl⟩ := List.mem_map.mp hline
    exact newline_not_mem_toLineProtocol (hrs r hr)
  · simpa using hne

/-- A batch reads back as the points of its results. -/
theorem readBatch_batchText {rs : List (ProbeResult F)} (hne : rs ≠ [])
    (hrs : ∀ r ∈ rs, Printable r) : Point.readBatch (batchText rs) = some (rs.map toPoint) := by
  rw [Point.readBatch, splitOn_batchText hne hrs]
  clear hne
  induction rs with
  | nil => rfl
  | cons r rs ih =>
    have hr := hrs r List.mem_cons_self
    have hread : Point.read (String.ofList (toLineProtocol r).toList) = some (toPoint r) := by
      rw [String.ofList_toList]
      exact Point.read_write (toPoint_ok hr) (toList_toLineProtocol hr.error)
    rw [List.map_cons, List.mapM_cons, hread, ih fun s hs => hrs s (List.mem_cons_of_mem r hs)]
    rfl

/-- **No control character leaves the probe layer, so batches are framed correctly.** -/
theorem published_framing {readToString : String → Except String String}
    {fromStr : String → Except String (AppConfig F)} {env : String → EnvVar} {path : String}
    {cfg : AppConfig F} {warnings : List String}
    (hload : loadWithWarnings readToString fromStr env path = .ok (cfg, warnings)) :
    (∀ r, Published cfg r → ControlFree r.probeName ∧ ControlFree r.probeType ∧
        ControlFree r.target ∧ ∀ err ∈ r.error, ControlFree err) ∧
      ∀ rs, rs ≠ [] → (∀ r ∈ rs, Published cfg r) →
        (batchText rs).toList.splitOn '\n' = rs.map (fun r => (toLineProtocol r).toList) ∧
        Point.readBatch (batchText rs) = some (rs.map toPoint) := by
  constructor
  · intro r hr
    have hprint := printable_of_published hload hr
    exact ⟨hprint.probeName.2, hprint.probeType.2, hprint.target.2, hprint.error⟩
  · intro rs hne hrs
    have hprint := fun r hr => printable_of_published hload (hrs r hr)
    exact ⟨splitOn_batchText hne hprint, readBatch_batchText hne hprint⟩

/-- A probe of a mail server, named with a line break. -/
def mailConfig : AppConfig Decimal :=
  .ofInflux
    { InfluxConfig.default with url := "http://localhost:8086", org := "org", bucket := "bucket" }
    [{ ProbeConfig.default with name := "mail\n1", probeType := .smtp, target := "localhost:25" }]

/-- That config with the name as it is published. -/
def loadedMailConfig : AppConfig Decimal :=
  { mailConfig with probes := mailConfig.probes.map fun p => { p with name := "mail\\n1" } }

theorem published_framing_mail :
    loadWithWarnings (fun _ => .ok "") (fun _ => .ok mailConfig) (fun _ => .unset) "config.yml" =
        .ok (loadedMailConfig, [rewrittenWarning "name" "mail\\n1"]) ∧
      (∀ r, Published loadedMailConfig r → ControlFree r.probeName ∧ ControlFree r.probeType ∧
        ControlFree r.target ∧ ∀ err ∈ r.error, ControlFree err) ∧
      ∀ rs, rs ≠ [] → (∀ r ∈ rs, Published loadedMailConfig r) →
        (batchText rs).toList.splitOn '\n' = rs.map (fun r => (toLineProtocol r).toList) ∧
        Point.readBatch (batchText rs) = some (rs.map toPoint) := by
  have hload : loadWithWarnings (fun _ => .ok "") (fun _ => .ok mailConfig) (fun _ => .unset)
      "config.yml" = .ok (loadedMailConfig, [rewrittenWarning "name" "mail\\n1"]) := by
    decide +kernel
  exact ⟨hload, published_framing hload⟩

end Huginn.Influx
