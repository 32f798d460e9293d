import Huginn.Lib.Escape
import Mathlib.Data.Finset.Basic
import Mathlib.Data.List.Nodup
import Mathlib.Data.String.Lemmas

/-!
# The text exposition format

A document is a list of lines: `# HELP` and `# TYPE` comments, and samples with their labels and
value. It is valid (`Valid`) when every family that occurs in it has one `# HELP` and one `# TYPE`
line with all its samples directly after them, and no two samples have the same name and the same
set of labels.

Documents that are written family by family (`Family.lines`) are valid exactly when the names of the
families are distinct and so are the label sets within each (`valid_flatMap_lines_iff`). And the
reader gets back what is written (`read_write`), whatever characters the label values are made of;
so does one that skips the comments and reads only the samples (`readSamples_write`).
-/

namespace Huginn.Exposition

open Escape

/-- A sample. The value is its text. -/
structure Sample where
  name : String
  labels : List (String × String)
  value : String
  deriving DecidableEq, Repr

/-- A line of a document. -/
inductive Line
  | help (name text : String)
  | type (name kind : String)
  | sample (s : Sample)
  deriving DecidableEq, Repr

/-- The family that a line belongs to. -/
def Line.family : Line → String
  | .help name _ => name
  | .type name _ => name
  | .sample s => s.name

/-- The samples of a document. -/
def samples (doc : List Line) : List Sample :=
  doc.filterMap fun
    | .sample s => some s
    | .help _ _ | .type _ _ => none

/-- Two samples would be one time series. -/
def SameSeries (a b : Sample) : Prop := a.name = b.name ∧ a.labels.toFinset = b.labels.toFinset

/-- A valid document. -/
structure Valid (doc : List Line) : Prop where
  /-- Every family is one block: its `# HELP` line, its `# TYPE` line, and its samples. -/
  blocks : ∀ line ∈ doc, ∃ before text kind block after,
    doc = before ++ .help line.family text :: .type line.family kind :: block ++ after ∧
    (∀ l ∈ block, (∃ s, l = .sample s) ∧ l.family = line.family) ∧
    ∀ l ∈ before ++ after, l.family ≠ line.family
  series : (samples doc).Pairwise fun a b => ¬ SameSeries a b

/-! ### Writing family by family -/

/-- A family: its name, help text and kind, and its samples. -/
structure Family where
  name : String
  help : String
  kind : String
  samples : List (List (String × String) × String)
  deriving DecidableEq, Repr

/-- The lines of a family. -/
def Family.lines (f : Family) : List Line :=
  .help f.name f.help :: .type f.name f.kind ::
    f.samples.map fun (labels, value) => .sample ⟨f.name, labels, value⟩

theorem Family.family_of_mem {f : Family} {l : Line} (h : l ∈ f.lines) : l.family = f.name := by
  simp only [lines, List.mem_cons, List.mem_map] at h
  rcases h with rfl | rfl | ⟨_, -, rfl⟩ <;> rfl

theorem samples_append (d e : List Line) : samples (d ++ e) = samples d ++ samples e :=
  List.filterMap_append

theorem Family.samples_lines (f : Family) :
    Exposition.samples f.lines = f.samples.map fun (labels, value) => ⟨f.name, labels, value⟩ := by
  simp [Exposition.samples, lines, List.filterMap_map]

theorem samples_flatMap_lines (fs : List Family) : samples (fs.flatMap Family.lines) =
    fs.flatMap fun f => f.samples.map fun (labels, value) => ⟨f.name, labels, value⟩ := by
  induction fs with
  | nil => rfl
  | cons f fs ih =>
    rw [List.flatMap_cons, samples_append, ih, Family.samples_lines, List.flatMap_cons]

/-- Whether a line is the `# HELP` line of a family. -/
def isHelpOf (name : String) : Line → Bool
  | .help n _ => n == name
  | .type _ _ | .sample _ => false

/-- In a valid document every family has one `# HELP` line. -/
theorem Valid.countP_isHelpOf {doc : List Line} (h : Valid doc) (name : String) :
    doc.countP (isHelpOf name) ≤ 1 := by
  by_cases hmem : ∃ l ∈ doc, isHelpOf name l = true
  · obtain ⟨l, hl, hhelp⟩ := hmem
    obtain ⟨before, text, kind, block, after, hdoc, hblock, hother⟩ := h.blocks l hl
    have hname : l.family = name := by
      cases l with
      | help n _ => simpa [isHelpOf, Line.family] using hhelp
      | type | sample => cases hhelp
    rw [hname] at hdoc hother
    have hnone : ∀ part : List Line, (∀ l ∈ part, l.family ≠ name ∨ ∃ s, l = .sample s) →
        part.countP (isHelpOf name) = 0 := by
      intro part hpart
      rw [List.countP_eq_zero]
      intro m hm hmhelp
      rcases hpart m hm with hne | ⟨s, rfl⟩
      · cases m with
        | help n _ => exact hne (show n = name by simpa [isHelpOf] using hmhelp)
        | type | sample => cases hmhelp
      · cases hmhelp
    have hbefore := hnone before fun m hm => .inl (hother m (List.mem_append_left _ hm))
    have hafter := hnone after fun m hm => .inl (hother m (List.mem_append_right _ hm))
    have hsamples := hnone block fun m hm => .inr (hblock m hm).1
    rw [hdoc, List.countP_append, List.countP_append, List.countP_cons, List.countP_cons, hbefore,
      hafter, hsamples]
    simp [isHelpOf]
  · have hzero : doc.countP (isHelpOf name) = 0 :=
      List.countP_eq_zero.mpr fun l hl hhelp => hmem ⟨l, hl, hhelp⟩
    omega

theorem countP_flatMap_lines (fs : List Family) (name : String) :
    (fs.flatMap Family.lines).countP (isHelpOf name) = (fs.map Family.name).count name := by
  induction fs with
  | nil => rfl
  | cons f fs ih =>
    have hsamples : (f.samples.map fun (labels, value) =>
        Line.sample ⟨f.name, labels, value⟩).countP (isHelpOf name) = 0 := by
      rw [List.countP_eq_zero]
      intro l hl
      obtain ⟨_, -, rfl⟩ := List.mem_map.mp hl
      exact Bool.false_ne_true
    rw [List.flatMap_cons, List.countP_append, ih, List.map_cons, List.count_cons, Family.lines,
      List.countP_cons, List.countP_cons, hsamples]
    simp [isHelpOf, Nat.add_comm]

/-- **Validity, family by family.** -/
theorem valid_flatMap_lines_iff (fs : List Family) :
    Valid (fs.flatMap Family.lines) ↔
      (fs.map Family.name).Nodup ∧
        ∀ f ∈ fs, f.samples.Pairwise fun a b => a.1.toFinset ≠ b.1.toFinset := by
  have hseries : (samples (fs.flatMap Family.lines)).Pairwise (fun a b => ¬ SameSeries a b) ↔
      (∀ f ∈ fs, f.samples.Pairwise fun a b => a.1.toFinset ≠ b.1.toFinset) ∧
        fs.Pairwise fun f g => ∀ a ∈ f.samples, ∀ b ∈ g.samples,
          ¬ (f.name = g.name ∧ a.1.toFinset = b.1.toFinset) := by
    rw [samples_flatMap_lines, List.pairwise_flatMap]
    refine and_congr ?_ ?_
    · simp [List.pairwise_map, SameSeries]
    · simp only [List.forall_mem_map, SameSeries]
  constructor
  · intro h
    refine ⟨List.nodup_iff_count_le_one.mpr fun name => ?_, (hseries.mp h.series).1⟩
    rw [← countP_flatMap_lines]
    exact h.countP_isHelpOf name
  · rintro ⟨hnodup, hlabels⟩
    refine ⟨fun line hline => ?_, hseries.mpr ⟨hlabels, ?_⟩⟩
    · obtain ⟨f, hf, hmem⟩ := List.mem_flatMap.mp hline
      obtain ⟨fs₁, fs₂, rfl⟩ := List.append_of_mem hf
      rw [Family.family_of_mem hmem]
      refine ⟨fs₁.flatMap Family.lines, f.help, f.kind,
        f.samples.map fun (labels, value) => .sample ⟨f.name, labels, value⟩,
        fs₂.flatMap Family.lines, ?_, fun l hl => ?_, fun l hl => ?_⟩
      · rw [List.flatMap_append, List.flatMap_cons, Family.lines]
        simp
      · obtain ⟨s, -, rfl⟩ := List.mem_map.mp hl
        exact ⟨⟨_, rfl⟩, rfl⟩
      · -- the other families have other names
        rw [← List.flatMap_append] at hl
        obtain ⟨g, hg, hlg⟩ := List.mem_flatMap.mp hl
        rw [Family.family_of_mem hlg]
        rintro heq
        have hperm : (f.name :: (fs₁ ++ fs₂).map Family.name).Nodup := by
          refine (List.Perm.nodup_iff ?_).mp hnodup
          rw [← List.map_cons]
          exact List.Perm.map _ List.perm_middle
        exact (List.nodup_cons.mp hperm).1 (heq ▸ List.mem_map_of_mem hg)
    · have hne : fs.Pairwise fun f g => f.name ≠ g.name := List.pairwise_map.mp hnodup
      exact hne.imp fun h _ _ _ _ heq => h heq.1

/-! ### The text -/

/-- The characters of names. -/
def isNameChar (c : Char) : Bool := c.isAlphanum || c == '_' || c == ':'

/-- The codes of the characters that are escaped in a label value. -/
def labelCode (c : Char) : Option Char :=
  if c = '\\' then some '\\' else if c = '"' then some '"' else if c = '\n' then some 'n' else none

/-- The characters of the codes. -/
def labelChar (code : Char) : Option Char :=
  if code = '\\' then some '\\' else if code = '"' then some '"'
  else if code = 'n' then some '\n' else none

def writeLabel (label : String × String) : List Char :=
  label.1.toList ++ '=' :: '"' :: (escape '\\' labelCode label.2.toList ++ ['"'])

/-- The labels in braces, or nothing when there are none. -/
def writeLabels : List (String × String) → List Char
  | [] => []
  | label :: labels =>
    '{' :: (writeLabel label ++ labels.flatMap (fun l => ',' :: writeLabel l) ++ ['}'])

def Line.write : Line → List Char
  | .help name text =>
    '#' :: ' ' :: 'H' :: 'E' :: 'L' :: 'P' :: ' ' :: (name.toList ++ ' ' :: text.toList)
  | .type name kind =>
    '#' :: ' ' :: 'T' :: 'Y' :: 'P' :: 'E' :: ' ' :: (name.toList ++ ' ' :: kind.toList)
  | .sample s => s.name.toList ++ (writeLabels s.labels ++ ' ' :: s.value.toList)

/-- The text of a document: every line ends with a newline. -/
def write (doc : List Line) : List Char := doc.flatMap fun l => l.write ++ ['\n']

/-- Read a name, which may not be empty. -/
def readName (cs : List Char) : Option (String × List Char) :=
  let name := cs.takeWhile isNameChar
  if name = [] then none else some (String.ofList name, cs.dropWhile isNameChar)

def readLabel (cs : List Char) : Option ((String × String) × List Char) := do
  let (name, rest) ← readName cs
  let rest ← expect '"' (← expect '=' rest)
  let (value, rest) := scan '\\' labelChar (· == '"') rest
  some ((name, String.ofList value), ← expect '"' rest)

/-- Read the labels after the first, up to the closing brace. -/
def readMoreLabels : ℕ → List Char → Option (List (String × String) × List Char)
  | 0, _ => none
  | fuel + 1, cs =>
    match expect '}' cs with
    | some rest => some ([], rest)
    | none => do
      let (label, rest) ← readLabel (← expect ',' cs)
      let (labels, rest) ← readMoreLabels fuel rest
      some (label :: labels, rest)

/-- Read the labels, if there are any. -/
def readLabels (cs : List Char) : Option (List (String × String) × List Char) :=
  match expect '{' cs with
  | some rest => do
    let (label, rest) ← readLabel rest
    let (labels, rest) ← readMoreLabels cs.length rest
    some (label :: labels, rest)
  | none => some ([], cs)

/-- Read a sample. The value is what follows the space, and has no space in it. -/
def readSample (cs : List Char) : Option Sample := do
  let (name, rest) ← readName cs
  let (labels, rest) ← readLabels rest
  let value ← expect ' ' rest
  if ' ' ∈ value then none else some ⟨name, labels, String.ofList value⟩

/-- What follows a prefix. -/
def stripPrefix (pre cs : List Char) : Option (List Char) :=
  if pre.isPrefixOf cs then some (cs.drop pre.length) else none

/-- Read a name, a space, and a text up to the end of the line. -/
def readComment (cs : List Char) : Option (String × String) := do
  let (name, rest) ← readName cs
  some (name, String.ofList (← expect ' ' rest))

def readLine (cs : List Char) : Option Line :=
  match stripPrefix ['#', ' ', 'H', 'E', 'L', 'P', ' '] cs with
  | some rest => (readComment rest).map fun (name, text) => .help name text
  | none =>
    match stripPrefix ['#', ' ', 'T', 'Y', 'P', 'E', ' '] cs with
    | some rest => (readComment rest).map fun (name, kind) => .type name kind
    | none => (readSample cs).map .sample

/-- Read a text. The last line ends with a newline, too. -/
def read (text : String) : Option (List Line) :=
  let pieces := text.toList.splitOn '\n'
  if pieces.getLast? = some [] then pieces.dropLast.mapM readLine else none

/-- A line to be skipped. -/
def isComment (line : List Char) : Bool := line.head? = some '#'

/-- Read the samples of a text, whatever its comments say. -/
def readSamples (text : String) : Option (List Sample) :=
  let pieces := text.toList.splitOn '\n'
  if pieces.getLast? = some [] then
    (pieces.dropLast.filter fun line => !isComment line).mapM readSample
  else none

/-! ### Reading back -/

/-- A name that can be written. -/
def NameOk (s : String) : Prop := s ≠ "" ∧ ∀ c ∈ s.toList, isNameChar c = true

instance (s : String) : Decidable (NameOk s) :=
  decidable_of_iff (s ≠ "" ∧ s.toList.all isNameChar = true) (by rw [NameOk, List.all_eq_true])

/-- A line that can be written. The values of labels can be any text. -/
def Line.Ok : Line → Prop
  | .help name text => NameOk name ∧ '\n' ∉ text.toList
  | .type name kind => NameOk name ∧ '\n' ∉ kind.toList
  | .sample s => NameOk s.name ∧ (∀ l ∈ s.labels, NameOk l.1) ∧ ' ' ∉ s.value.toList ∧
      '\n' ∉ s.value.toList

theorem NameOk.ne {s : String} (h : NameOk s) {c : Char} (hc : isNameChar c = false) :
    c ∉ s.toList := by
  intro hmem
  rw [h.2 c hmem] at hc
  cases hc

/-- A name is read up to the first character that is not one of a name. -/
theorem readName_append {s : String} (h : NameOk s) {c : Char} (hc : isNameChar c = false)
    (rest : List Char) : readName (s.toList ++ c :: rest) = some (s, c :: rest) := by
  have htake : (s.toList ++ c :: rest).takeWhile isNameChar = s.toList := by
    rw [List.takeWhile_append_of_pos h.2, List.takeWhile_cons_of_neg (by simp [hc]),
      List.append_nil]
  have hdrop : (s.toList ++ c :: rest).dropWhile isNameChar = c :: rest := by
    rw [List.dropWhile_append_of_pos h.2, List.dropWhile_cons_of_neg (by simp [hc])]
  have hne : s.toList ≠ [] := by simpa using h.1
  rw [readName, htake, hdrop]
  simp only [hne, if_false, String.ofList_toList]

theorem labelChar_of_labelCode {x code : Char} (h : labelCode x = some code) :
    labelChar code = some x := by
  unfold labelCode at h
  split_ifs at h with h1 h2 h3 <;> obtain rfl := Option.some.inj h
  · rw [h1]; rfl
  · rw [h2]; rfl
  · rw [h3]; rfl

theorem readLabel_writeLabel {label : String × String} (h : NameOk label.1) (rest : List Char) :
    readLabel (writeLabel label ++ rest) = some (label, rest) := by
  have hquote : ∀ x : Char, (x == '"') = true → labelCode x ≠ none := by
    intro x hx
    obtain rfl := eq_of_beq hx
    decide
  have hscan : scan '\\' labelChar (· == '"')
      (escape '\\' labelCode label.2.toList ++ '"' :: rest) = (label.2.toList, '"' :: rest) :=
    scan_escape (fun _ _ => labelChar_of_labelCode) (by decide) hquote (by decide) rfl _ rest
  have hline : writeLabel label ++ rest =
      label.1.toList ++ '=' :: '"' :: (escape '\\' labelCode label.2.toList ++ '"' :: rest) := by
    simp [writeLabel]
  rw [readLabel, hline, readName_append h (by decide)]
  simp only [Option.bind_eq_bind, Option.bind_some, expect_cons, hscan, String.ofList_toList]

theorem readMoreLabels_flatMap {labels : List (String × String)} (h : ∀ l ∈ labels, NameOk l.1)
    {fuel : ℕ} (hfuel : labels.length < fuel) (rest : List Char) :
    readMoreLabels fuel (labels.flatMap (fun l => ',' :: writeLabel l) ++ '}' :: rest) =
      some (labels, rest) := by
  induction labels generalizing fuel with
  | nil =>
    obtain ⟨fuel, rfl⟩ : ∃ k, fuel = k + 1 := ⟨fuel - 1, by simp at hfuel; omega⟩
    rw [readMoreLabels, List.flatMap_nil, List.nil_append, expect_cons]
  | cons label labels ih =>
    obtain ⟨fuel, rfl⟩ : ∃ k, fuel = k + 1 := ⟨fuel - 1, by simp at hfuel; omega⟩
    have htail := ih (fun l hl => h l (List.mem_cons_of_mem label hl))
      (Nat.lt_of_succ_lt_succ hfuel)
    rw [readMoreLabels, List.flatMap_cons, List.cons_append, List.cons_append, List.append_assoc,
      expect_cons_of_ne (by decide), expect_cons]
    simp only [Option.bind_eq_bind, Option.bind_some]
    rw [readLabel_writeLabel (h label List.mem_cons_self)]
    simp only [Option.bind_some]
    rw [htail]
    rfl

theorem length_le_length_flatMap (labels : List (String × String)) :
    labels.length ≤ (labels.flatMap fun l => ',' :: writeLabel l).length := by
  induction labels with
  | nil => exact le_rfl
  | cons l labels ih =>
    rw [List.flatMap_cons, List.length_append, List.length_cons, List.length_cons]
    omega

theorem readLabels_writeLabels {labels : List (String × String)} (h : ∀ l ∈ labels, NameOk l.1)
    (rest : List Char) :
    readLabels (writeLabels labels ++ ' ' :: rest) = some (labels, ' ' :: rest) := by
  cases labels with
  | nil => rw [readLabels, writeLabels, List.nil_append, expect_cons_of_ne (by decide)]
  | cons label labels =>
    have hline : writeLabels (label :: labels) ++ ' ' :: rest = '{' :: (writeLabel label ++
        (labels.flatMap (fun l => ',' :: writeLabel l) ++ '}' :: ' ' :: rest)) := by
      simp [writeLabels]
    have hfuel : labels.length < ('{' :: (writeLabel label ++
        (labels.flatMap (fun l => ',' :: writeLabel l) ++ '}' :: ' ' :: rest))).length := by
      have := length_le_length_flatMap labels
      rw [List.length_cons, List.length_append, List.length_append]
      omega
    rw [readLabels, hline, expect_cons]
    simp only [Option.bind_eq_bind]
    rw [readLabel_writeLabel (h label List.mem_cons_self)]
    simp only [Option.bind_some]
    rw [readMoreLabels_flatMap (fun l hl => h l (List.mem_cons_of_mem label hl)) hfuel]
    rfl

theorem readComment_append {name : String} (h : NameOk name) (text : String) :
    readComment (name.toList ++ ' ' :: text.toList) = some (name, text) := by
  rw [readComment, readName_append h (by decide)]
  simp only [Option.bind_eq_bind, Option.bind_some, expect_cons, String.ofList_toList]

theorem readSample_write {s : Sample} (h : (Line.sample s).Ok) :
    readSample (Line.sample s).write = some s := by
  obtain ⟨hname, hlabels, hspace, -⟩ := h
  -- the name ends at a brace, or at the space before the value
  obtain ⟨c, rest, hc, hrest⟩ : ∃ c rest, isNameChar c = false ∧
      writeLabels s.labels ++ ' ' :: s.value.toList = c :: rest := by
    cases s.labels with
    | nil => exact ⟨' ', _, rfl, rfl⟩
    | cons l ls => exact ⟨'{', _, rfl, rfl⟩
  rw [readSample, Line.write, hrest, readName_append hname hc]
  simp only [Option.bind_eq_bind, Option.bind_some]
  rw [← hrest, readLabels_writeLabels hlabels]
  simp only [Option.bind_some, expect_cons, hspace, if_false, String.ofList_toList]

/-- A name does not begin with a number sign. -/
theorem exists_cons_write_sample {s : Sample} (h : (Line.sample s).Ok) :
    ∃ c rest, c ≠ '#' ∧ (Line.sample s).write = c :: rest := by
  cases hname : s.name.toList with
  | nil => exact absurd (by simpa using hname) h.1.1
  | cons c cs =>
    refine ⟨c, cs ++ (writeLabels s.labels ++ ' ' :: s.value.toList), ?_, ?_⟩
    · rintro rfl
      exact h.1.ne (c := '#') rfl (by rw [hname]; exact List.mem_cons_self)
    · rw [Line.write, hname, List.cons_append]

/-- **A line reads back.** -/
theorem readLine_write {l : Line} (h : l.Ok) : readLine l.write = some l := by
  cases l with
  | help name text =>
    have hstrip : stripPrefix ['#', ' ', 'H', 'E', 'L', 'P', ' '] (Line.help name text).write =
        some (name.toList ++ ' ' :: text.toList) := by
      simp [stripPrefix, Line.write, List.isPrefixOf]
    rw [readLine, hstrip]
    simp only [readComment_append h.1, Option.map_some]
  | type name kind =>
    have hhelp : stripPrefix ['#', ' ', 'H', 'E', 'L', 'P', ' '] (Line.type name kind).write =
        none := by
      simp [stripPrefix, Line.write, List.isPrefixOf]
    have hstrip : stripPrefix ['#', ' ', 'T', 'Y', 'P', 'E', ' '] (Line.type name kind).write =
        some (name.toList ++ ' ' :: kind.toList) := by
      simp [stripPrefix, Line.write, List.isPrefixOf]
    rw [readLine, hhelp, hstrip]
    simp only [readComment_append h.1, Option.map_some]
  | sample s =>
    obtain ⟨c, rest, hc, hrest⟩ := exists_cons_write_sample h
    have hnone : ∀ p, stripPrefix ('#' :: p) (Line.sample s).write = none := by
      intro p
      rw [hrest]
      simp [stripPrefix, List.isPrefixOf, Ne.symm hc]
    rw [readLine, hnone, hnone, readSample_write h]
    rfl

/-! ### The whole text -/

theorem newline_not_mem_writeLabel {label : String × String} (h : NameOk label.1) :
    '\n' ∉ writeLabel label := by
  have hname := h.ne (c := '\n') rfl
  have hvalue : '\n' ∉ escape '\\' labelCode label.2.toList := by
    intro hmem
    rcases mem_of_mem_escape hmem with heq | ⟨-, hnone⟩ | ⟨y, -, hcode⟩
    · exact absurd heq (by decide)
    · exact absurd hnone (by decide)
    · unfold labelCode at hcode
      split_ifs at hcode <;> exact absurd (Option.some.inj hcode) (by decide)
  simp [writeLabel, hname, hvalue]

theorem newline_not_mem_write {l : Line} (h : l.Ok) : '\n' ∉ l.write := by
  cases l with
  | help name text => simp [Line.write, h.1.ne (c := '\n') rfl, h.2]
  | type name kind => simp [Line.write, h.1.ne (c := '\n') rfl, h.2]
  | sample s =>
    obtain ⟨hname, hlabels, -, hvalue⟩ := h
    have hwritten : '\n' ∉ writeLabels s.labels := by
      cases hl : s.labels with
      | nil => simp [writeLabels]
      | cons label labels =>
        rw [hl] at hlabels
        have hfirst := newline_not_mem_writeLabel (hlabels label List.mem_cons_self)
        have hmore : ∀ l ∈ labels, '\n' ∉ writeLabel l := fun l hmem =>
          newline_not_mem_writeLabel (hlabels l (List.mem_cons_of_mem label hmem))
        simpa [writeLabels, hfirst] using hmore
    simp [Line.write, hname.ne (c := '\n') rfl, hwritten, hvalue]

/-- The pieces between the newlines are the lines, and nothing after the last. -/
theorem splitOn_write {doc : List Line} (h : ∀ l ∈ doc, l.Ok) :
    (write doc).splitOn '\n' = doc.map Line.write ++ [[]] := by
  have hjoin : write doc = List.intercalate ['\n'] (doc.map Line.write ++ [[]]) := by
    clear h
    induction doc with
    | nil => rfl
    | cons l doc ih =>
      have hne : doc.map Line.write ++ [[]] ≠ [] := by simp
      rw [List.map_cons, List.cons_append, List.intercalate_cons_of_ne_nil hne, ← ih, write,
        List.flatMap_cons]
      rfl
  rw [hjoin, List.splitOn_intercalate]
  · intro l hl
    rcases List.mem_append.mp hl with hl | hl
    · obtain ⟨line, hline, rfl⟩ := List.mem_map.mp hl
      exact newline_not_mem_write (h line hline)
    · rw [List.mem_singleton.mp hl]
      exact List.not_mem_nil
  · simp

theorem mapM_readLine {doc : List Line} (h : ∀ l ∈ doc, l.Ok) :
    (doc.map Line.write).mapM readLine = some doc := by
  induction doc with
  | nil => rfl
  | cons l doc ih =>
    rw [List.map_cons, List.mapM_cons, readLine_write (h l List.mem_cons_self),
      ih fun m hm => h m (List.mem_cons_of_mem l hm)]
    rfl

/-- **A document reads back.** -/
theorem read_write {doc : List Line} (h : ∀ l ∈ doc, l.Ok) {text : String}
    (htext : text.toList = write doc) : read text = some doc := by
  rw [read, htext, splitOn_write h]
  simp only [List.getLast?_concat, if_true, List.dropLast_concat, mapM_readLine h]

theorem mapM_readSample {doc : List Line} (h : ∀ l ∈ doc, l.Ok) :
    ((doc.map Line.write).filter fun line => !isComment line).mapM readSample =
      some (samples doc) := by
  induction doc with
  | nil => rfl
  | cons l doc ih =>
    have htail := ih fun m hm => h m (List.mem_cons_of_mem l hm)
    cases l with
    | help name text => exact htail
    | type name kind => exact htail
    | sample s =>
      have hs := h _ List.mem_cons_self
      obtain ⟨c, rest, hc, hrest⟩ := exists_cons_write_sample hs
      have hkeep : isComment (Line.sample s).write = false := by
        rw [hrest]
        simpa [isComment] using hc
      rw [List.map_cons, List.filter_cons_of_pos (by rw [hkeep]; rfl), List.mapM_cons,
        readSample_write hs, htail]
      rfl

/-- **The samples of a document read back.** -/
theorem readSamples_write {doc : List Line} (h : ∀ l ∈ doc, l.Ok) {text : String}
    (htext : text.toList = write doc) : readSamples text = some (samples doc) := by
  rw [readSamples, htext, splitOn_write h]
  simp only [List.getLast?_concat, if_true, List.dropLast_concat, mapM_readSample h]

end Huginn.Exposition
