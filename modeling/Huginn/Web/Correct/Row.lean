import Huginn.Influx.Correct.Framing
import Huginn.Lib.Markup
import Huginn.Probes.Correct.Deadline
import Huginn.Web.Correct.Dashboard
import Huginn.Web.Row

/-!
# What a row of the dashboard says

Everything on the page has been inserted by the event loop (`Dashboard.only_of_run`), and a row is
read as the texts of its result (`read_rowCells`), whatever these are made of. So a target that can
choose the error of a probe cannot put markup on the page.
-/

namespace Huginn.Web

open Markup Influx Probes

variable {F : Type} [F64 F]

/-! ### The cells -/

/-- A cell with a text in it. -/
def cell (text : String) : Element := ⟨['t', 'd'], none, text.toList⟩

/-- The cell of the verdict. -/
def verdictCell (up : Bool) : Element :=
  if up then ⟨['t', 'd'], some ['u', 'p'], ['✅', ' ', 'U', 'P']⟩
  else ⟨['t', 'd'], some ['d', 'o', 'w', 'n'], ['❌', ' ', 'D', 'O', 'W', 'N']⟩

/-- The cells of a row. -/
def rowElements (toFixed : F → String) (r : ProbeResult F) : List Element :=
  [cell r.probeName, cell r.probeType, cell r.target, verdictCell r.up, cell (rowMs toFixed r),
    cell (rowErr r)]

/-- The replacements one after the other are one: what the first puts in has nothing that the later
ones replace. -/
theorem toList_escHtml (str : String) : (escHtml str).toList = writeText str.toList := by
  simp only [escHtml, toList_replace, List.flatMap_assoc, writeText]
  refine List.flatMap_congr fun c _ => ?_
  by_cases hamp : c = '&'
  · subst hamp
    decide
  by_cases hlt : c = '<'
  · subst hlt
    decide
  by_cases hgt : c = '>'
  · subst hgt
    decide
  by_cases hquot : c = '"'
  · subst hquot
    decide
  have hnone : references.lookup c = none := by
    rw [List.lookup_eq_none_iff]
    simp [references, hamp, hlt, hgt, hquot]
  rw [writeChar, hnone]
  simp only [if_neg hamp, if_neg hlt, if_neg hgt, if_neg hquot, List.flatMap_singleton]

theorem write_cell (text : String) : (cell text).write =
    ['<', 't', 'd', '>'] ++ (writeText text.toList ++ ['<', '/', 't', 'd', '>']) := rfl

omit [F64 F] in
theorem toList_statusCell (r : ProbeResult F) :
    (statusCell r).toList = (verdictCell r.up).write := by
  unfold statusCell verdictCell
  split
  all_goals decide

/-- The cells are what is written. -/
theorem toList_rowCells (toFixed : F → String) (r : ProbeResult F) :
    (rowCells toFixed r).toList = write (rowElements toFixed r) := by
  have htd : ("<td>" : String).toList = ['<', 't', 'd', '>'] := by simp
  have hend : ("</td>" : String).toList = ['<', '/', 't', 'd', '>'] := by simp
  unfold rowCells
  simp only [String.toList_append, toList_escHtml, toList_statusCell]
  rw [htd, hend]
  simp only [write, rowElements, List.flatMap_cons, List.flatMap_nil, write_cell,
    List.append_assoc, List.append_nil]

/-! ### Reading them -/

omit [F64 F] in
/-- A text without control characters is one that a browser does not change. -/
theorem ok_cell {text : String} (h : ControlFree text) : (cell text).Ok where
  tag_ne_nil := List.cons_ne_nil _ _
  tag := by
    show ∀ c ∈ ['t', 'd'], isTagChar c = true
    apply List.all_eq_true.mp
    decide
  cls _ hcls := nomatch hcls
  text := h

omit [F64 F] in
theorem ok_verdictCell (up : Bool) : (verdictCell up).Ok := by
  cases up
  all_goals
    apply Element.ok_of_all
    · exact List.cons_ne_nil _ _
    · decide
    · decide
    · decide

theorem controlFree_of_plainText {s : String} (h : PlainText s) : ControlFree s :=
  fun c hc => (h c hc).2.2.2.2

theorem controlFree_rowMs {toFixed : F → String} (hfixed : ∀ x, PlainText (toFixed x))
    (r : ProbeResult F) : ControlFree (rowMs toFixed r) := by
  unfold rowMs
  split
  · have hms : PlainText "ms" := plainText_of_all (by decide)
    exact controlFree_of_plainText (plainText_append (hfixed _) hms)
  · decide

omit [F64 F] in
theorem controlFree_rowErr {r : ProbeResult F} (h : ∀ err ∈ r.error, ControlFree err) :
    ControlFree (rowErr r) := by
  unfold rowErr
  split
  · next err herr =>
    split
    · decide
    · exact h err herr
  · decide

/-- **The row of a printable result is read as the texts of the result.** -/
theorem read_rowCells {toFixed : F → String} (hfixed : ∀ x, PlainText (toFixed x))
    {r : ProbeResult F} (hr : Printable r) :
    Markup.read (rowCells toFixed r).toList = some (rowElements toFixed r) := by
  have hok : ∀ e ∈ rowElements toFixed r, e.Ok := by
    intro e he
    simp only [rowElements, List.mem_cons, List.not_mem_nil, or_false] at he
    rcases he with rfl | rfl | rfl | rfl | rfl | rfl
    · exact ok_cell hr.probeName.2
    · exact ok_cell hr.probeType.2
    · exact ok_cell hr.target.2
    · exact ok_verdictCell r.up
    · exact ok_cell (controlFree_rowMs hfixed r)
    · exact ok_cell (controlFree_rowErr hr.error)
  rw [toList_rowCells]
  exact read_write hok

/-! ### What is on the page -/

namespace Dashboard

section Only

omit [F64 F]

variable {P : ProbeResult F → Prop} {s t : Dashboard F} {a : DashboardAction F}
  {as : List (DashboardAction F)}

/-- The event loop inserts only results that satisfy `P`. -/
def Inserts (P : ProbeResult F → Prop) (a : DashboardAction F) : Prop :=
  match a with
  | .insert result => P result
  | .send | .subscribe | .forward | .read | .deliver | .seed | .fail => True

instance [DecidablePred P] (a : DashboardAction F) : Decidable (Inserts P a) :=
  match a with
  | .insert r => inferInstanceAs (Decidable (P r))
  | .send | .subscribe | .forward | .read | .deliver | .seed | .fail => .isTrue trivial

/-- Every value is one that satisfies `P`, and has the name that it is kept under. -/
def Holds (P : ProbeResult F → Prop) (m : HashMap String (ProbeResult F)) : Prop :=
  ∀ name r, m.get name = some r → r.probeName = name ∧ P r

theorem Holds.insert {m : HashMap String (ProbeResult F)} (h : Holds P m) {r : ProbeResult F}
    (hr : P r) : Holds P (m.insert r.probeName r) := by
  intro name r' hget
  rw [HashMap.get_insert, Function.update_apply] at hget
  split at hget
  · next heq =>
    obtain rfl := Option.some.inj hget
    exact ⟨heq.symm, hr⟩
  · exact h name r' hget

theorem Holds.values {m : HashMap String (ProbeResult F)} (h : Holds P m) :
    ∀ r ∈ m.values, P r := by
  intro r hr
  obtain ⟨⟨name, r'⟩, he, rfl⟩ := List.mem_map.mp hr
  exact (h name r' (HashMap.mem_entries_iff.mp he)).2

/-- Every result in the server, on its way, or on the page is one that satisfies `P`. -/
structure Only (P : ProbeResult F → Prop) (s : Dashboard F) : Prop where
  map : Holds P s.web.results
  sent : ∀ r ∈ s.web.sseTx.sent, P r
  sending : ∀ r ∈ s.sending, P r
  wire : ∀ r ∈ s.wire, P r
  answered : ∀ results, s.fetch = .answered results → ∀ r ∈ results, P r
  pending : ∀ r ∈ s.page.pending, P r
  rows : Holds P s.page.rows

theorem holds_foldl_upsertRow {l : List (ProbeResult F)} {p : Page F} (hl : ∀ r ∈ l, P r)
    (h : Holds P p.rows) : Holds P (l.foldl Page.upsertRow p).rows := by
  induction l generalizing p with
  | nil => exact h
  | cons r l ih =>
    have hr : P r := hl r List.mem_cons_self
    exact ih (fun r' hr' => hl r' (List.mem_cons_of_mem r hr')) (h.insert hr)

/-- The page after a snapshot, or without one. -/
theorem Only.seed {results : Option (List (ProbeResult F))} (h : s.Only P)
    (hresults : ∀ l ∈ results, ∀ r ∈ l, P r) (fetch : Fetch F)
    (hfetch : ∀ l, fetch ≠ .answered l) :
    Only P { s with fetch := fetch, page := s.page.seed results } where
  map := h.map
  sent := h.sent
  sending := h.sending
  wire := h.wire
  answered l hl := absurd hl (hfetch l)
  pending := by
    intro r hr
    rw [Page.seed, Page.foldl_upsertRow] at hr
    cases hr
  rows := by
    have hl : ∀ r ∈ results.getD [], P r := by
      cases results with
      | none => exact fun r hr => absurd hr List.not_mem_nil
      | some l => exact hresults l rfl
    have hpending : ∀ r ∈ ((results.getD []).foldl Page.upsertRow s.page).pending, P r := by
      rw [Page.foldl_upsertRow]
      exact h.pending
    exact holds_foldl_upsertRow hpending (holds_foldl_upsertRow hl h.rows)

theorem Only.deliver {r : ProbeResult F} {wire : List (ProbeResult F)} (h : s.Only P)
    (hw : s.wire = r :: wire) :
    Only P { s with wire := wire, page := s.page.onMessage r } where
  map := h.map
  sent := h.sent
  sending := h.sending
  wire r' hr' := h.wire r' (hw ▸ List.mem_cons_of_mem r hr')
  answered := h.answered
  pending := by
    unfold Page.onMessage
    split
    · exact h.pending
    · intro r' hr'
      rcases List.mem_append.mp hr' with hold | hnew
      · exact h.pending r' hold
      · rw [List.mem_singleton.mp hnew]
        exact h.wire r (hw ▸ List.mem_cons_self)
  rows := by
    unfold Page.onMessage
    split
    · exact h.rows.insert (h.wire r (hw ▸ List.mem_cons_self))
    · exact h.rows

/-- **The step lemma.** -/
theorem only_step (hi : s.Only P) (ha : Inserts P a) (h : s.step a = some t) : t.Only P := by
  cases step_to h with
  | insert r hs => exact { hi with
      map := hi.map.insert ha
      sending := by
        rintro r' ⟨⟩
        exact ha }
  | send r hs => exact { hi with
      sent := by
        intro r' hr'
        rcases List.mem_append.mp hr' with hold | hnew
        · exact hi.sent r' hold
        · rw [List.mem_singleton.mp hnew]
          exact hi.sending r hs
      sending := fun _ h => nomatch h }
  | subscribe hs => exact { hi with }
  | forward stream r hs hr => exact { hi with
      wire := by
        intro r' hr'
        rcases List.mem_append.mp hr' with hold | hnew
        · exact hi.wire r' hold
        · rw [List.mem_singleton.mp hnew]
          exact hi.sent r (List.mem_of_getElem? hr) }
  | lagged stream hs hlt => exact { hi with }
  | read hf => exact { hi with
      answered := by
        rintro l ⟨⟩
        exact hi.map.values }
  | deliver r wire hw => exact hi.deliver hw
  | seed results hf =>
    refine hi.seed ?_ (.applied results) ?_
    · rintro l ⟨⟩
      exact hi.answered results hf
    · exact nofun
  | fail hf =>
    refine hi.seed ?_ .failed ?_
    · exact nofun
    · exact nofun

theorem only_new : Only P (new : Dashboard F) where
  map _ _ h := nomatch h
  sent _ h := nomatch h
  sending _ h := nomatch h
  wire _ h := nomatch h
  answered _ h := nomatch h
  pending _ h := nomatch h
  rows _ _ h := nomatch h

/-- **Nothing is on the page that the event loop has not inserted.** -/
theorem only_of_run (h : Run step (fun _ a => Inserts P a) new as s) : s.Only P :=
  h.invariant only_new fun _ _ _ hi ha hst => only_step hi ha hst

end Only

/-- **Nothing that a probe reports is taken for markup.** Whatever the order of the event loop, of
the server and of the page: every row is under the name of its probe, it is a result that was
published, and the HTML of the row is read as six cells with the texts of this result in them. -/
theorem rows_read_back {readToString : String → Except String String}
    {fromStr : String → Except String (AppConfig F)} {env : String → EnvVar} {path : String}
    {cfg : AppConfig F} {warnings : List String}
    (hload : loadWithWarnings readToString fromStr env path = .ok (cfg, warnings))
    {toFixed : F → String} (hfixed : ∀ x, PlainText (toFixed x))
    {as : List (DashboardAction F)} {s : Dashboard F}
    (hrun : Run step (fun _ a => Inserts (Published cfg) a) new as s) :
    ∀ name r, s.page.rows.get name = some r → r.probeName = name ∧ Published cfg r ∧
      Markup.read (rowCells toFixed r).toList =
        some [cell name, cell r.probeType, cell r.target, verdictCell r.up,
          cell (rowMs toFixed r), cell (rowErr r)] := by
  intro name r hrow
  obtain ⟨rfl, hpublished⟩ := (only_of_run hrun).rows name r hrow
  have hprintable : Printable r := printable_of_published hload hpublished
  exact ⟨rfl, hpublished, read_rowCells hfixed hprintable⟩

/-- A probe with markup in its name, of a server that answers with some. -/
def markupProbe : ProbeConfig Decimal :=
  { ProbeConfig.default with name := "<b>a&amp;b", probeType := .http, target := "http://[::1]/" }

def markupConfig : AppConfig Decimal :=
  .ofInflux
    { InfluxConfig.default with url := "http://localhost:8086", org := "org", bucket := "bucket" }
    [markupProbe]

def markupWorld : World Decimal :=
  { silentWorld 0 with get := fun _ => ExceptT.mk (.ready 20 (.error "</td><script>")) }

def markupResult : ProbeResult Decimal :=
  .failure ⟨0⟩ "<b>a&amp;b" "http" "http://[::1]/" (F64.ofInt 0) "</td><script>"

theorem published_markupResult : Published markupConfig markupResult :=
  ⟨markupProbe, List.mem_cons_self, markupWorld, 20, by decide +kernel⟩

/-- The page subscribes, and the result comes with the snapshot and once more as a message. -/
def markupRun : List (DashboardAction Decimal) :=
  [.subscribe, .insert markupResult, .send, .read, .forward, .seed, .deliver]

theorem rows_read_back_markup : ∃ s : Dashboard Decimal,
    Run step (fun _ a => Inserts (Published markupConfig) a) new markupRun s ∧
    s.page.rows.get "<b>a&amp;b" = some markupResult ∧
    Markup.read (rowCells (F64.fixed 1) markupResult).toList =
      some [cell "<b>a&amp;b", cell "http", cell "http://[::1]/", verdictCell false, cell "0.0ms",
        cell "</td><script>"] := by
  have hload : loadWithWarnings (fun _ => .ok "") (fun _ => .ok markupConfig) (fun _ => .unset)
      "config.yml" = .ok (markupConfig, []) := by
    decide +kernel
  obtain ⟨s, hs⟩ : ∃ s, runActions step (fun _ a => Inserts (· = markupResult) a) new markupRun =
      some s := ⟨_, rfl⟩
  have hrun : Run step (fun _ a => Inserts (Published markupConfig) a) new markupRun s := by
    refine (run_of_runActions _ hs).mono fun _ a ha => ?_
    cases a with
    | insert r =>
      obtain rfl : r = markupResult := ha
      exact published_markupResult
    | send | subscribe | forward | read | deliver | seed | fail => trivial
  have hrow : s.page.rows.get "<b>a&amp;b" = some markupResult := by
    obtain rfl := Option.some.inj hs
    rfl
  exact ⟨s, hrun, hrow, (rows_read_back hload (F64.fixed_plain 1) hrun _ _ hrow).2.2⟩

end Dashboard

end Huginn.Web
