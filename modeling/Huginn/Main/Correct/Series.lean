import Huginn.Influx.Correct.Framing
import Huginn.Web.Correct.Prometheus
import Huginn.Web.State

/-!
# Probes keep apart

Loading leaves the names of the probes distinct, and neither the tags of line protocol nor the
labels of the exposition make two names one: both read back as they were written. So what two
probes of a loaded config publish never shares a key, a series or a row (`probes_apart`).
-/

namespace Huginn.Main

open Exposition Influx Probes Web

variable {F : Type} [F64 F]

/-! ### What the encoders write of a probe -/

/-- The tags in a line of `to_line_protocol`. -/
def tagSection (r : ProbeResult F) : String :=
  ",probe_name=" ++ escapeTag r.probeName ++ ",probe_type=" ++ escapeTag r.probeType ++
    ",target=" ++ escapeTag r.target

/-- The labels in a line of `render_family`. -/
def labelSection (r : ProbeResult F) : String :=
  "\x7bprobe=\"" ++ escapeLabel r.probeName ++ "\",type=\"" ++ escapeLabel r.probeType ++
    "\",target=\"" ++ escapeLabel r.target ++ "\"\x7d"

theorem sampleLine_eq (name : String) (r : ProbeResult F) (value : F) :
    sampleLine name r value = name ++ labelSection r ++ " " ++ F64.display value ++ "\n" := by
  have hclose : "\"\x7d " = "\"\x7d" ++ " " := by decide
  delta labelSection
  simp only [sampleLine, hclose, String.append_assoc]

omit [F64 F] in
theorem toList_tagSection (r : ProbeResult F) :
    (tagSection r).toList = [("probe_name", r.probeName), ("probe_type", r.probeType),
      ("target", r.target)].flatMap Point.writeTag := by
  have hnames : Point.writeName "probe_name" = "probe_name".toList ∧
      Point.writeName "probe_type" = "probe_type".toList ∧
      Point.writeName "target" = "target".toList := by decide
  delta tagSection
  simp only [String.toList_append, toList_escapeTag, List.flatMap_cons, List.flatMap_nil,
    Point.writeTag, hnames.1, hnames.2.1, hnames.2.2, List.append_assoc, List.cons_append,
    List.append_nil]
  rfl

/-- The tags stand between the measurement and the first space that is not escaped. -/
theorem toLineProtocol_eq {r : ProbeResult F} (herr : ∀ err ∈ r.error, ControlFree err) :
    ∃ fields, toLineProtocol r = "probe_result" ++ tagSection r ++ " " ++ fields := by
  refine ⟨String.ofList (Point.writeFields (toPoint r).fields ++
    ' ' :: (toString (toPoint r).timestamp).toList), String.toList_inj.mp ?_⟩
  have hmeasurement : Point.writeName (toPoint r).measurement = "probe_result".toList := by
    show Point.writeName "probe_result" = _
    decide
  rw [toList_toLineProtocol herr, Point.write, hmeasurement]
  simp only [String.toList_append, String.toList_ofList, toList_tagSection, List.append_assoc]
  rfl

omit [F64 F] in
theorem toList_labelSection (r : ProbeResult F) :
    (labelSection r).toList = writeLabels (labelsOf r) := by
  delta labelSection
  simp [writeLabels, writeLabel, labelsOf, String.toList_append, toList_escapeLabel]

/-! ### What keeps two results apart -/

/-- Two results share nothing that tells results apart: they are kept under different keys, so that
one does not replace the other, their lines have different tags, which read back to different names,
and so do their labels. -/
structure SeriesApart (r r' : ProbeResult F) : Prop where
  key : r.probeName ≠ r'.probeName
  kept : ∀ s : WebState F, ((s.insert r).insert r').results.get r.probeName = some r
  lines : ∃ fields fields', toLineProtocol r = "probe_result" ++ tagSection r ++ " " ++ fields ∧
    toLineProtocol r' = "probe_result" ++ tagSection r' ++ " " ++ fields'
  tags : tagSection r ≠ tagSection r'
  points : ∃ p p', Point.read (toLineProtocol r) = some p ∧
    Point.read (toLineProtocol r') = some p' ∧
    p.tags.lookup "probe_name" ≠ p'.tags.lookup "probe_name"
  samples : ∀ (name : String) (value : F),
    sampleLine name r value = name ++ labelSection r ++ " " ++ F64.display value ++ "\n" ∧
      sampleLine name r' value = name ++ labelSection r' ++ " " ++ F64.display value ++ "\n"
  labelTexts : labelSection r ≠ labelSection r'
  labels : ∃ ls ls', readLabels ((labelSection r).toList ++ [' ']) = some (ls, [' ']) ∧
    readLabels ((labelSection r').toList ++ [' ']) = some (ls', [' ']) ∧
    ls.toFinset ≠ ls'.toFinset

theorem read_point {r : ProbeResult F} (hr : Printable r) :
    Point.read (toLineProtocol r) = some (toPoint r) :=
  Point.read_write (toPoint_ok hr) (toList_toLineProtocol hr.error)

omit [F64 F] in
theorem readTags_tagSection {r : ProbeResult F} (hr : Printable r) :
    Point.readTags 4 ((tagSection r).toList ++ [' ']) = some ([("probe_name", r.probeName),
      ("probe_type", r.probeType), ("target", r.target)], []) := by
  rw [toList_tagSection]
  refine Point.readTags_flatMap_writeTag ?_ (Nat.lt_succ_self 3) []
  simp [hr.probeName.1, hr.probeType.1, hr.target.1]

omit [F64 F] in
theorem readLabels_labelSection (r : ProbeResult F) :
    readLabels ((labelSection r).toList ++ [' ']) = some (labelsOf r, [' ']) := by
  rw [toList_labelSection]
  exact readLabels_writeLabels (labelsOf_ok r) []

/-- Different names survive both encoders. -/
theorem seriesApart {r r' : ProbeResult F} (hr : Printable r) (hr' : Printable r')
    (h : r.probeName ≠ r'.probeName) : SeriesApart r r' where
  key := h
  kept s := by
    show ((s.results.insert _ _).insert _ _).get _ = _
    rw [HashMap.get_insert, HashMap.get_insert, Function.update_of_ne h, Function.update_self]
  lines := by
    obtain ⟨fields, hline⟩ := toLineProtocol_eq hr.error
    obtain ⟨fields', hline'⟩ := toLineProtocol_eq hr'.error
    exact ⟨fields, fields', hline, hline'⟩
  tags := by
    intro heq
    have hread := readTags_tagSection hr
    rw [heq, readTags_tagSection hr'] at hread
    simp only [Option.some.injEq, Prod.mk.injEq, List.cons.injEq] at hread
    exact h hread.1.1.2.symm
  points := by
    refine ⟨_, _, read_point hr, read_point hr', fun heq => h ?_⟩
    simpa [toPoint] using heq
  samples name value := ⟨sampleLine_eq name r value, sampleLine_eq name r' value⟩
  labelTexts := by
    intro heq
    have hread := readLabels_labelSection r
    rw [heq, readLabels_labelSection r'] at hread
    simp only [labelsOf, Option.some.injEq, Prod.mk.injEq, List.cons.injEq] at hread
    exact h hread.1.1.2.symm
  labels := ⟨_, _, readLabels_labelSection r, readLabels_labelSection r', fun heq =>
    h (probeName_of_labelsOf heq)⟩

/-! ### What loading guarantees -/

omit [F64 F] in
/-- Names and targets without control characters are left as they are. -/
theorem escapeControlCharsInNames_of_controlFree {p : ProbeConfig F} (hp : p.ControlFree) :
    p.escapeControlCharsInNames = (p, []) := by
  have hname : escapeNamed "name" p.name = (p.name, []) := by
    simp [escapeNamed, escapeControlChars_of_controlFree hp.name]
  have htarget : escapeNamed "target" p.target = (p.target, []) := by
    simp [escapeNamed, escapeControlChars_of_controlFree hp.target]
  rw [ProbeConfig.escapeControlCharsInNames, hname, htarget]
  rfl

omit [F64 F] in
/-- A second run of the escaping changes nothing and warns about nothing. -/
theorem escapeControlCharsInNames_idem {cfg : AppConfig F}
    (hfree : ∀ p ∈ cfg.probes, p.ControlFree) : escapeControlCharsInNames cfg = (cfg, []) := by
  have hprobes : cfg.probes.map (fun p => p.escapeControlCharsInNames.1) = cfg.probes := by
    refine (List.map_congr_left fun p hp => ?_).trans (List.map_id' _)
    rw [escapeControlCharsInNames_of_controlFree (hfree p hp)]
  have hwarnings : cfg.probes.flatMap (fun p => p.escapeControlCharsInNames.2) = [] := by
    refine List.flatMap_eq_nil_iff.mpr fun p hp => ?_
    rw [escapeControlCharsInNames_of_controlFree (hfree p hp)]
  rw [escapeControlCharsInNames, hprobes, hwarnings]

/-- **Distinct probes never share a key, a series or a row.** -/
theorem probes_apart {F : Type} [F64 F] {readToString : String → Except String String}
    {fromStr : String → Except String (AppConfig F)} {env : String → EnvVar} {path : String}
    {cfg : AppConfig F} {warnings : List String}
    (hload : loadWithWarnings readToString fromStr env path = .ok (cfg, warnings)) :
    ((cfg.probes.map ProbeConfig.name).Nodup ∧
        ∀ p ∈ cfg.probes, p.name ≠ "" ∧ ControlFree p.name) ∧
      escapeControlCharsInNames cfg = (cfg, []) ∧
      ∀ (i j : ℕ) (p q : ProbeConfig F), i ≠ j → cfg.probes[i]? = some p →
        cfg.probes[j]? = some q →
        ∀ (w w' : World F) (t t' : ℕ) (r r' : ProbeResult F),
          execute w p = .ready t r → execute w' q = .ready t' r' → SeriesApart r r' := by
  obtain ⟨hvalid, hfree⟩ := loadWithWarnings_ok hload
  refine ⟨⟨hvalid.names, fun p hp => ⟨(hvalid.probes p hp).name_ne, (hfree p hp).name⟩⟩,
    escapeControlCharsInNames_idem hfree, ?_⟩
  intro i j p q hne hi hj w w' t t' r r' hr hr'
  have hp := List.mem_of_getElem? hi
  have hq := List.mem_of_getElem? hj
  have hresult := execute_resultOf w t r hr
  have hresult' := execute_resultOf w' t' r' hr'
  have hnames : p.name ≠ q.name := by
    intro heq
    obtain ⟨hlt, -⟩ := List.getElem?_eq_some_iff.mp hi
    refine hne ((List.getElem?_inj (by rwa [List.length_map]) hvalid.names).mp ?_)
    rw [List.getElem?_map, hi, List.getElem?_map, hj]
    exact congrArg some heq
  refine seriesApart (printable_of_resultOf (hvalid.probes p hp) (hfree p hp) hresult)
    (printable_of_resultOf (hvalid.probes q hq) (hfree q hq) hresult') ?_
  rw [hresult.probeName, hresult'.probeName]
  exact hnames

/-- Two probes of one mail server, named with a comma, an equals sign and a quote. -/
def twoProbes : AppConfig Decimal :=
  .ofInflux
    { InfluxConfig.default with url := "http://localhost:8086", org := "org", bucket := "bucket" }
    [{ ProbeConfig.default with name := "mail,1", probeType := .smtp, target := "localhost:25" },
      { ProbeConfig.default with name := "mail=\"1\"", probeType := .smtp,
                                 target := "localhost:25" }]

theorem probes_apart_twoProbes :
    loadWithWarnings (fun _ => .ok "") (fun _ => .ok twoProbes) (fun _ => .unset) "config.yml" =
        .ok (twoProbes, []) ∧
      escapeControlCharsInNames twoProbes = (twoProbes, []) ∧
      ∀ (w w' : World Decimal) (t t' : ℕ) (r r' : ProbeResult Decimal) (p q : ProbeConfig Decimal),
        twoProbes.probes = [p, q] → execute w p = .ready t r → execute w' q = .ready t' r' →
          SeriesApart r r' := by
  have hload : loadWithWarnings (fun _ => .ok "") (fun _ => .ok twoProbes) (fun _ => .unset)
      "config.yml" = .ok (twoProbes, []) := by
    decide +kernel
  obtain ⟨-, hidem, hapart⟩ := probes_apart hload
  refine ⟨hload, hidem, fun w w' t t' r r' p q hprobes => ?_⟩
  exact hapart 0 1 p q (by decide) (by rw [hprobes]; rfl) (by rw [hprobes]; rfl) w w' t t' r r'

end Huginn.Main
