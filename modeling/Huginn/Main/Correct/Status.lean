import Huginn.Influx.Correct.Framing
import Huginn.Probes.Correct.Deadline
import Huginn.Web.Correct.OneProbe

/-!
# Where the status of a response goes

An HTTP probe judges the status of the response that it receives, and keeps it only where it is the
expected one (`statusCode_of_execute`). So both backends have the status of every response exactly
as long as no probe meets an unexpected one (`statusReported_iff`).
-/

namespace Huginn.Main

open Future Influx Probes Web Exposition

variable {F : Type} [F64 F]

/-- The status of the response that an HTTP probe receives: the client could be built, and the
response is there in time. -/
def response (w : World F) (p : ProbeConfig F) : Option UInt16 :=
  match w.httpClient, (w.get p.target).run with
  | .ok (), .ready t (.ok status) => if t ≤ p.timeout.asMillis then some status else none
  | _, _ => none

/-- The status that means that the target is up. -/
def expectedStatus (p : ProbeConfig F) : UInt16 := p.expectedStatus.getD 200

/-- The point of a result has the status of the response as a field, and the text of a scrape has it
as a sample about the probe; without a response, neither has one. And the result is up when the
status is the expected one. -/
structure StatusReported (w : World F) (p : ProbeConfig F) (r : ProbeResult F) (text : String) :
    Prop where
  point : ∃ pt, Point.read (toLineProtocol r) = some pt ∧
    (pt.fields.filter fun f => f.1 = "status_code").map Prod.snd =
      ((response w p).map fun s => FieldValue.bare (toString s.toNat ++ "i")).toList
  scrape : ∃ ss, readSamples text = some ss ∧
    (ss.filter fun s =>
        s.name = "huginn_probe_http_status_code" ∧ ("probe", p.name) ∈ s.labels).map Sample.value =
      ((response w p).map fun s => toString s.toNat).toList
  up : r.up = true ↔ response w p = some (expectedStatus p)

/-! ### What the probe keeps -/

/-- What a result of an HTTP probe has of the status. -/
structure Keeps (p : ProbeConfig F) (status : Option UInt16) (r : ProbeResult F) : Prop where
  statusCode : r.statusCode = status.filter fun s => s = expectedStatus p
  up : r.up = true ↔ status = some (expectedStatus p)
  metrics : r.metrics = .empty

omit [F64 F] in
theorem keeps_failure (p : ProbeConfig F) {status : Option UInt16}
    (h : status ≠ some (expectedStatus p)) (now : DateTime) (probeType : String) (ms : F)
    (message : String) : Keeps p status (.failure now p.name probeType p.target ms message) where
  statusCode := by
    refine (Option.filter_eq_none_iff.mpr fun s hs heq => h ?_).symm
    rw [hs, of_decide_eq_true heq]
  up := iff_of_false Bool.false_ne_true h
  metrics := rfl

omit [F64 F] in
/-- The verdict on what the wait for the response came to. -/
theorem keeps_of_wait {w : World F} {p : ProbeConfig F} {u t : ℕ} {outcome : Except String UInt16}
    {r : ProbeResult F}
    (hwait : withProbeTimeout p.timeout (timeoutMessage p) (w.get p.target) = ready u outcome)
    (h : Http.probe w p = .ready t r) : Keeps p outcome.toOption r := by
  unfold Http.probe at h
  dsimp only at h
  rw [hwait, bind_ready] at h
  cases outcome with
  | error msg =>
    obtain ⟨-, rfl⟩ := Future.ready.inj h
    exact keeps_failure p (Option.some_ne_none _).symm _ _ _ _
  | ok s =>
    dsimp only at h
    split_ifs at h with hs
    · obtain ⟨-, rfl⟩ := Future.ready.inj h
      have heq : s = expectedStatus p := hs
      exact {
        statusCode := by
          show some s = Option.filter _ (some s)
          rw [Option.filter_some, if_pos (decide_eq_true heq)]
        up := iff_of_true rfl (congrArg some heq)
        metrics := rfl }
    · obtain ⟨-, rfl⟩ := Future.ready.inj h
      exact keeps_failure p (fun heq => hs (Option.some.inj heq)) _ _ _ _

omit [F64 F] in
theorem response_of_le {w : World F} {p : ProbeConfig F} {u : ℕ} {outcome : Except String UInt16}
    (hclient : w.httpClient = .ok ()) (hget : (w.get p.target).run = ready u outcome)
    (hle : u ≤ p.timeout.asMillis) : response w p = outcome.toOption := by
  unfold response
  rw [hclient, hget]
  cases outcome with
  | error msg => rfl
  | ok s => exact if_pos hle

omit [F64 F] in
theorem response_of_late {w : World F} {p : ProbeConfig F}
    (hlate : ∀ u outcome, (w.get p.target).run = ready u outcome → p.timeout.asMillis < u) :
    response w p = none := by
  unfold response
  split
  · rename_i u s _ hget
    exact if_neg (Nat.not_le.mpr (hlate u _ hget))
  · rfl

omit [F64 F] in
theorem response_of_client {w : World F} {p : ProbeConfig F} {e : String}
    (hclient : w.httpClient = .error e) : response w p = none := by
  unfold response
  rw [hclient]

/-- **The status is kept where it is the expected one.** -/
theorem keeps_of_execute {w : World F} {p : ProbeConfig F}
    (htype : p.probeType = .http ∨ p.probeType = .https) {t : ℕ} {r : ProbeResult F}
    (h : execute w p = .ready t r) : Keeps p (response w p) r := by
  have hrun : HttpProbe.probe w p = .ready t r := by
    rw [← h]
    unfold execute
    rcases htype with htype | htype <;> rw [htype]
  unfold HttpProbe.probe at hrun
  cases hclient : w.httpClient with
  | error e =>
    rw [hclient] at hrun
    obtain ⟨-, rfl⟩ := Future.ready.inj hrun
    rw [response_of_client hclient]
    exact keeps_failure p (Option.some_ne_none _).symm _ _ _ _
  | ok _ =>
    rw [hclient] at hrun
    by_cases hlate : ∀ u outcome, (w.get p.target).run = ready u outcome → p.timeout.asMillis < u
    · rw [response_of_late hlate]
      exact keeps_of_wait (withProbeTimeout_of_late hlate) hrun
    · push Not at hlate
      obtain ⟨u, outcome, hget, hle⟩ := hlate
      rw [response_of_le hclient hget hle]
      exact keeps_of_wait (withProbeTimeout_of_le hget hle) hrun

/-! ### What the backends get -/

theorem toList_map_filter_eq_iff {α β : Type} {o : Option α} {q : α → Bool} {f : α → β} :
    ((o.filter q).map f).toList = (o.map f).toList ↔ ∀ a ∈ o, q a = true := by
  cases o with
  | none => simp
  | some a => cases h : q a <;> simp [h]

/-- The fields of a point that are called `status_code`. -/
theorem filter_fields_toPoint {r : ProbeResult F} (h : r.metrics = .empty) :
    (((toPoint r).fields.filter fun f => f.1 = "status_code").map Prod.snd) =
      (r.statusCode.map fun s => FieldValue.bare (toString s.toNat ++ "i")).toList := by
  unfold toPoint
  rw [h]
  cases r.statusCode <;> cases r.error <;> simp [BTreeMap.empty]

/-- The samples of a result that are about the status. -/
theorem filter_prescribed_singleton {r : ProbeResult F} (h : r.metrics = .empty)
    (keys : List String) :
    ((prescribed [r] keys).filter fun s => s.name = "huginn_probe_http_status_code").map
        Sample.value = (r.statusCode.map fun s => toString s.toNat).toList := by
  have hmetrics : metricSamples [r] keys = [] := by
    unfold metricSamples
    simp [h, BTreeMap.empty]
  unfold prescribed
  rw [hmetrics]
  cases hstatus : r.statusCode with
  | none => simp [sampleOf, hstatus]
  | some s =>
    have hvalue : F64.display (F64.ofInt s.toNat : F) = toString s.toNat :=
      F64.display_ofInt _ (Nat.lt_trans s.toNat_lt (by decide))
    simp [sampleOf, hstatus, hvalue]

/-- The sample about one probe in the text of a scrape. -/
theorem filter_readSamples_render {r : ProbeResult F} {m : HashMap String (ProbeResult F)}
    {name : String} (hkeyed : Keyed m) (hget : m.get name = some r) (h : r.metrics = .empty)
    (stats : WriteStats) : ∃ ss, readSamples (render m stats) = some ss ∧
      (ss.filter fun s =>
          s.name = "huginn_probe_http_status_code" ∧ ("probe", name) ∈ s.labels).map Sample.value =
        (r.statusCode.map fun s => toString s.toNat).toList := by
  obtain ⟨ss, hread, hfilter⟩ := readSamples_render_of hkeyed stats
  refine ⟨ss, hread, ?_⟩
  have hname := hfilter name
  rw [hget] at hname
  have hboth : (ss.filter fun s =>
      s.name = "huginn_probe_http_status_code" ∧ ("probe", name) ∈ s.labels) =
        (ss.filter (isOf name)).filter fun s => s.name = "huginn_probe_http_status_code" := by
    rw [List.filter_filter]
    refine List.filter_congr fun s _ => ?_
    rw [Bool.eq_iff_iff, Bool.and_eq_true, isOf_iff, decide_eq_true_iff, decide_eq_true_iff]
  rw [hboth, hname]
  exact filter_prescribed_singleton h _

/-- **Both backends have the status of the response exactly when it is the expected one, or there
was none.** The result is the last one of an HTTP probe of a loaded config, whatever else was
published. -/
theorem statusReported_iff {F : Type} [F64 F] {readToString : String → Except String String}
    {fromStr : String → Except String (AppConfig F)} {env : String → EnvVar} {path : String}
    {cfg : AppConfig F} {warnings : List String}
    (hload : loadWithWarnings readToString fromStr env path = .ok (cfg, warnings))
    {p : ProbeConfig F} (hp : p ∈ cfg.probes) (htype : p.probeType = .http ∨ p.probeType = .https)
    {w : World F} {t : ℕ} {r : ProbeResult F} (hrun : execute w p = .ready t r)
    {events : List (ProbeResult F)} (hlast : lastResult events p.name = some r)
    {m : HashMap String (ProbeResult F)}
    (hm : m.entries.Perm (WebState.afterEvents events).results.entries) (stats : WriteStats) :
    StatusReported w p r (render m stats) ↔ ∀ s ∈ response w p, s = expectedStatus p := by
  have hkeeps := keeps_of_execute htype hrun
  have hprint := printable_of_published hload ⟨p, hp, w, t, hrun⟩
  have hread : Point.read (toLineProtocol r) = some (toPoint r) :=
    Point.read_write (toPoint_ok hprint) (toList_toLineProtocol hprint.error)
  have hget : m.get = lastResult events := by
    rw [← WebState.get_afterEvents]
    exact funext fun name => HashMap.get_of_perm hm name
  have hiff : (∀ s ∈ response w p, decide (s = expectedStatus p) = true) ↔
      ∀ s ∈ response w p, s = expectedStatus p :=
    forall₂_congr fun _ _ => decide_eq_true_iff
  constructor
  · intro h
    obtain ⟨pt, hpt, hfields⟩ := h.point
    obtain rfl := Option.some.inj (hread.symm.trans hpt)
    rw [filter_fields_toPoint hkeeps.metrics, hkeeps.statusCode,
      toList_map_filter_eq_iff] at hfields
    exact hiff.mp hfields
  · intro h
    have hall := hiff.mpr h
    obtain ⟨ss, hsamples, hvalues⟩ := filter_readSamples_render (keyed_of_get hget)
      ((congrFun hget p.name).trans hlast) hkeeps.metrics stats
    refine ⟨⟨toPoint r, hread, ?_⟩, ⟨ss, hsamples, hvalues.trans ?_⟩, hkeeps.up⟩
    · rw [filter_fields_toPoint hkeeps.metrics, hkeeps.statusCode, toList_map_filter_eq_iff]
      exact hall
    · rw [hkeeps.statusCode, toList_map_filter_eq_iff]
      exact hall

/-! ### Two responses -/

/-- A world in which every GET is answered with a status. -/
def webWorld (status : UInt16) : World Decimal :=
  { silentWorld 0 with get := fun _ => ExceptT.mk (.ready 20 (.ok status)) }

/-- A probe of a web server. -/
def webProbe : ProbeConfig Decimal :=
  { ProbeConfig.default with name := "web", probeType := .http, target := "http://localhost/" }

def webConfig : AppConfig Decimal :=
  .ofInflux
    { InfluxConfig.default with url := "http://localhost:8086", org := "org", bucket := "bucket" }
    [webProbe]

/-- What is published when the answer is a 200, and when it is a 503. -/
def webUp : ProbeResult Decimal :=
  .success ⟨0⟩ "web" "http" "http://localhost/" (F64.ofInt 0) (some 200)

def webDown : ProbeResult Decimal :=
  .failure ⟨0⟩ "web" "http" "http://localhost/" (F64.ofInt 0) "unexpected status 503, expected 200"

theorem statusReported_iff_ok :
    StatusReported (webWorld 200) webProbe webUp
        (render (WebState.afterEvents [webUp]).results .default) ↔
      ∀ s ∈ response (webWorld 200) webProbe, s = expectedStatus webProbe := by
  have hload : loadWithWarnings (fun _ => .ok "") (fun _ => .ok webConfig) (fun _ => .unset)
      "config.yml" = .ok (webConfig, []) := by
    decide +kernel
  have hrun : execute (webWorld 200) webProbe = .ready 20 webUp := by decide +kernel
  exact statusReported_iff hload List.mem_cons_self (.inl rfl) hrun (by decide) (.refl _) .default

/-- A 503 reaches neither backend. -/
theorem unexpected_status_unreported :
    response (webWorld 503) webProbe = some 503 ∧
    execute (webWorld 503) webProbe = .ready 20 webDown ∧
    ∀ text, ¬ StatusReported (webWorld 503) webProbe webDown text := by
  refine ⟨by decide, by decide +kernel, fun text h => ?_⟩
  obtain ⟨pt, hpt, hfields⟩ := h.point
  have hprint : Printable webDown := ⟨by decide, by decide, by decide, by decide, by decide⟩
  have hread : Point.read (toLineProtocol webDown) = some (toPoint webDown) :=
    Point.read_write (toPoint_ok hprint) (toList_toLineProtocol hprint.error)
  obtain rfl := Option.some.inj (hread.symm.trans hpt)
  rw [filter_fields_toPoint rfl] at hfields
  cases hfields

end Huginn.Main
