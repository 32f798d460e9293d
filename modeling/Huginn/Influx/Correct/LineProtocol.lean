import Huginn.Influx.LineReader

/-!
# Line protocol reads back

Two steps. A well-formed point that is written with `Point.write` is read back by `Point.read`
(`Point.read_write`), whatever characters its names and texts are made of. And what
`to_line_protocol` renders is that writing of the point the result stands for
(`toList_toLineProtocol`): its chains of replacements come to the escaping of `Lib.Escape`.
-/

namespace Huginn.Influx

open Escape

namespace Point

/-! ### Names -/

theorem isNameSpecial_of_isNameStop {c : Char} (h : isNameStop c = true) :
    isNameSpecial c = true := by
  simp only [isNameStop, isNameSpecial, Bool.or_eq_true] at h ⊢
  tauto

theorem ne_backslash_of_isNameStop {c : Char} (h : isNameStop c = true) : c ≠ '\\' := by
  rintro rfl
  exact absurd h (by decide)

/-- A name that is not empty reads back. -/
theorem readName_writeName {s : String} (hs : s ≠ "") {c : Char} (hc : isNameStop c = true)
    (rest : List Char) : readName (writeName s ++ c :: rest) = some (s, c :: rest) := by
  have hesc : isNameSpecial '\\' = true := rfl
  have hscan := scan_escape_literally hesc (fun _ => isNameSpecial_of_isNameStop)
    (ne_backslash_of_isNameStop hc) hc s.toList rest
  have hne : s.toList ≠ [] := by simpa using hs
  rw [readName, writeName, hscan]
  simp only [hne, if_false, String.ofList_toList]

/-! ### Tags -/

theorem readTags_flatMap_writeTag {tags : List (String × String)}
    (htags : ∀ tag ∈ tags, tag.1 ≠ "" ∧ tag.2 ≠ "") {fuel : ℕ} (hfuel : tags.length < fuel)
    (rest : List Char) :
    readTags fuel (tags.flatMap writeTag ++ ' ' :: rest) = some (tags, rest) := by
  induction tags generalizing fuel with
  | nil =>
    obtain ⟨fuel, rfl⟩ : ∃ k, fuel = k + 1 := ⟨fuel - 1, by simp at hfuel; omega⟩
    rw [readTags, List.flatMap_nil, List.nil_append, expect_cons]
  | cons tag tags ih =>
    obtain ⟨fuel, rfl⟩ : ∃ k, fuel = k + 1 := ⟨fuel - 1, by simp at hfuel; omega⟩
    obtain ⟨hkey, hvalue⟩ := htags tag List.mem_cons_self
    have htail := ih (fun t ht => htags t (List.mem_cons_of_mem tag ht))
      (Nat.lt_of_succ_lt_succ hfuel)
    -- what follows the value begins with a comma or a space
    obtain ⟨c, more, hc, hmore⟩ : ∃ c more, isNameStop c = true ∧
        tags.flatMap writeTag ++ ' ' :: rest = c :: more := by
      cases tags with
      | nil => exact ⟨' ', rest, rfl, rfl⟩
      | cons t ts => exact ⟨',', _, rfl, rfl⟩
    have hline : (tag :: tags).flatMap writeTag ++ ' ' :: rest =
        ',' :: (writeName tag.1 ++ '=' :: (writeName tag.2 ++ c :: more)) := by
      simp [writeTag, ← hmore]
    rw [readTags, hline, expect_cons_of_ne (by decide), expect_cons]
    simp only [Option.bind_eq_bind, Option.bind_some]
    rw [readName_writeName hkey rfl]
    simp only [Option.bind_some, expect_cons]
    rw [readName_writeName hvalue hc]
    simp only [Option.bind_some]
    rw [← hmore, htail]
    rfl

/-! ### Fields -/

/-- A value that can be written: bare text has no character with a meaning in it. -/
def ValueOk : FieldValue → Prop
  | .bare text => PlainText text
  | .quoted _ => True

theorem readValue_writeValue {v : FieldValue} (hv : ValueOk v) {c : Char}
    (hc : isValueStop c = true) (rest : List Char) :
    readValue (writeValue v ++ c :: rest) = some (v, c :: rest) := by
  cases v with
  | quoted text =>
    have hspecial : ∀ x, isQuoteStop x = true → isQuoteSpecial x = true := by
      intro x hx
      simp only [isQuoteStop, isQuoteSpecial, Bool.or_eq_true] at hx ⊢
      exact .inr hx
    have hesc : isQuoteSpecial '\\' = true := rfl
    have hquote : isQuoteStop '"' = true := rfl
    have hscan := scan_escape_literally hesc hspecial (by decide) hquote text.toList (c :: rest)
    have hline : writeValue (.quoted text) ++ c :: rest =
        '"' :: (escape '\\' (literally isQuoteSpecial) text.toList ++ '"' :: c :: rest) := by
      simp [writeValue]
    rw [readValue, hline, expect_cons]
    simp only [hscan, expect_cons, Option.bind_eq_bind, Option.bind_some, String.ofList_toList]
  | bare text =>
    have hcne : c ≠ '\\' ∧ c ≠ '"' := by
      constructor <;> rintro rfl <;> exact absurd hc (by decide)
    have hplain : ∀ x ∈ text.toList, x ≠ '\\' ∧ isValueStop x = false := by
      intro x hx
      obtain ⟨h1, h2, -, h4, -⟩ := hv x hx
      exact ⟨h4, by simp [isValueStop, h1, h2]⟩
    have hscan : scan '\\' (literally isNameSpecial) isValueStop (text.toList ++ c :: rest) =
        (text.toList, c :: rest) := scan_bare hplain hcne.1 hc rest
    have hquote : expect '"' (text.toList ++ c :: rest) = none := by
      cases htext : text.toList with
      | nil => exact expect_cons_of_ne hcne.2 rest
      | cons x xs => exact expect_cons_of_ne (hv x (by simp [htext])).2.2.1 _
    rw [readValue, writeValue, hquote]
    simp only [hscan, String.ofList_toList]

theorem writeFields_cons_cons (f g : String × FieldValue) (fs : List (String × FieldValue)) :
    writeFields (f :: g :: fs) = writeField f ++ ',' :: writeFields (g :: fs) := by
  simp [writeFields, List.intercalate_cons_cons]

theorem readFields_writeFields {fields : List (String × FieldValue)} (hne : fields ≠ [])
    (hfields : ∀ f ∈ fields, f.1 ≠ "" ∧ ValueOk f.2) {fuel : ℕ} (hfuel : fields.length ≤ fuel)
    (rest : List Char) :
    readFields fuel (writeFields fields ++ ' ' :: rest) = some (fields, rest) := by
  induction fields generalizing fuel with
  | nil => exact absurd rfl hne
  | cons f fields ih =>
    obtain ⟨fuel, rfl⟩ : ∃ k, fuel = k + 1 := ⟨fuel - 1, by simp at hfuel; omega⟩
    obtain ⟨hkey, hvalue⟩ := hfields f List.mem_cons_self
    cases fields with
    | nil =>
      have hline : writeFields [f] ++ ' ' :: rest =
          writeName f.1 ++ '=' :: (writeValue f.2 ++ ' ' :: rest) := by
        simp [writeFields, writeField]
      rw [readFields, hline, readName_writeName hkey rfl]
      simp only [Option.bind_eq_bind, Option.bind_some, expect_cons]
      rw [readValue_writeValue hvalue rfl]
      simp only [Option.bind_some, expect_cons]
    | cons g fields =>
      have htail := ih (List.cons_ne_nil g fields)
        (fun h hh => hfields h (List.mem_cons_of_mem f hh)) (Nat.le_of_succ_le_succ hfuel)
      have hline : writeFields (f :: g :: fields) ++ ' ' :: rest =
          writeName f.1 ++ '=' ::
            (writeValue f.2 ++ ',' :: (writeFields (g :: fields) ++ ' ' :: rest)) := by
        rw [writeFields_cons_cons, writeField]
        simp
      rw [readFields, hline, readName_writeName hkey rfl]
      simp only [Option.bind_eq_bind, Option.bind_some, expect_cons]
      rw [readValue_writeValue hvalue rfl]
      simp only [Option.bind_some, expect_cons, expect_cons_of_ne (show ',' ≠ ' ' by decide)]
      rw [htail]
      rfl

/-! ### The timestamp -/

theorem readInt_toString (z : ℤ) : readInt (toString z).toList = some z := by
  cases z with
  | ofNat n =>
    change readInt (toString n).toList = some (n : ℤ)
    have hminus : expect '-' (toString n).toList = none := by
      cases hcs : (toString n).toList with
      | nil => rfl
      | cons c cs =>
        refine expect_cons_of_ne ?_ cs
        rintro rfl
        exact absurd (isDigit_of_mem_toString (n := n) (by rw [hcs]; exact List.mem_cons_self))
          (by decide)
    rw [readInt, hminus]
    simp only [toList_toString_ne_nil, if_false, digitsValue_toString, Option.map_some]
    rfl
  | negSucc n =>
    have hcs : (toString (Int.negSucc n)).toList = '-' :: (toString (n + 1)).toList :=
      String.toList_append
    rw [hcs, readInt, expect_cons]
    simp only [toList_toString_ne_nil, if_false, digitsValue_toString, Option.map_some]
    rfl

/-! ### The whole line -/

/-- A point that can be written: no name is empty, and bare values have no character with a meaning
in them. -/
structure Ok (p : Point) : Prop where
  measurement : p.measurement ≠ ""
  tags : ∀ tag ∈ p.tags, tag.1 ≠ "" ∧ tag.2 ≠ ""
  fields_ne_nil : p.fields ≠ []
  fields : ∀ f ∈ p.fields, f.1 ≠ "" ∧ ValueOk f.2

theorem length_le_length_flatMap_writeTag (tags : List (String × String)) :
    tags.length ≤ (tags.flatMap writeTag).length := by
  induction tags with
  | nil => exact le_rfl
  | cons tag tags ih =>
    rw [List.flatMap_cons, List.length_append, List.length_cons, writeTag, List.length_cons]
    omega

theorem length_le_length_writeFields (fields : List (String × FieldValue)) :
    fields.length ≤ (writeFields fields).length := by
  induction fields with
  | nil => exact Nat.zero_le _
  | cons f fields ih =>
    cases fields with
    | nil =>
      simp only [writeFields, writeField, List.map_cons, List.map_nil, List.intercalate_singleton,
        List.length_append, List.length_cons, List.length_nil]
      omega
    | cons g fields =>
      rw [writeFields_cons_cons, List.length_append]
      simp only [List.length_cons] at ih ⊢
      omega

/-- **The round trip.** A point that can be written is read back from what is written. -/
theorem read_write {p : Point} (hp : p.Ok) {line : String} (hline : line.toList = p.write) :
    read line = some p := by
  -- both lengths are below the length of the line, which is the fuel
  have htags : p.tags.length < line.toList.length := by
    have := length_le_length_flatMap_writeTag p.tags
    rw [hline, write, List.length_append, List.length_append, List.length_cons]
    omega
  have hfields : p.fields.length ≤ line.toList.length := by
    have := length_le_length_writeFields p.fields
    rw [hline, write, List.length_append, List.length_append, List.length_cons, List.length_append]
    omega
  obtain ⟨c, more, hc, hmore⟩ : ∃ c more, isNameStop c = true ∧
      p.tags.flatMap writeTag ++ ' ' :: (writeFields p.fields ++
        ' ' :: (toString p.timestamp).toList) = c :: more := by
    cases p.tags with
    | nil => exact ⟨' ', _, rfl, rfl⟩
    | cons t ts => exact ⟨',', _, rfl, rfl⟩
  have hname : readName line.toList = some (p.measurement, c :: more) := by
    rw [hline, write, hmore]
    exact readName_writeName hp.measurement hc more
  simp only [read, hname, Option.bind_eq_bind, Option.bind_some]
  rw [← hmore, readTags_flatMap_writeTag hp.tags htags]
  simp only [Option.bind_some]
  rw [readFields_writeFields hp.fields_ne_nil hp.fields hfields]
  simp only [Option.bind_some, readInt_toString]

end Point

/-! ### What `to_line_protocol` writes -/

theorem toList_escapeTag (s : String) : (escapeTag s).toList = Point.writeName s := by
  have h : (escapeTag s).toList =
      (((s.toList.flatMap fun x => if x = '\\' then ['\\', '\\'] else [x]).flatMap
        fun x => if x = ',' then ['\\', ','] else [x]).flatMap
        fun x => if x = '=' then ['\\', '='] else [x]).flatMap
        fun x => if x = ' ' then ['\\', ' '] else [x] := by
    simp only [escapeTag, toList_replace]
    rfl
  rw [h, replace_esc, escape_replace_literally rfl (by decide),
    escape_replace_literally rfl (by decide), escape_replace_literally rfl (by decide)]
  rfl

/-- What the chain of replacements of `escape_field_str` escapes, and how. -/
def fieldStrCode (c : Char) : Option Char :=
  if c = '\r' then some 'r' else if c = '\n' then some 'n' else literally Point.isQuoteSpecial c

theorem toList_escapeFieldStr (s : String) :
    (escapeFieldStr s).toList = escape '\\' fieldStrCode s.toList := by
  have h : (escapeFieldStr s).toList =
      (((s.toList.flatMap fun x => if x = '\\' then ['\\', '\\'] else [x]).flatMap
        fun x => if x = '"' then ['\\', '"'] else [x]).flatMap
        fun x => if x = '\n' then ['\\', 'n'] else [x]).flatMap
        fun x => if x = '\r' then ['\\', 'r'] else [x] := by
    simp only [escapeFieldStr, toList_replace]
    rfl
  have hquote : (fun x => x == '\\' || x == '"') = Point.isQuoteSpecial := rfl
  have hcode : ∀ c : Char, Point.isQuoteSpecial c = false →
      ∀ x, literally Point.isQuoteSpecial x ≠ some c := by
    intro c hc x hx
    obtain ⟨hs, rfl⟩ := literally_eq_some_iff.mp hx
    rw [hs] at hc
    cases hc
  rw [h, replace_esc, escape_replace_literally rfl (by decide), hquote,
    escape_replace rfl (by decide) (hcode '\n' rfl), escape_replace rfl (by decide)]
  · rfl
  · intro x
    split_ifs
    · decide
    · exact hcode '\r' rfl x

/-- In a text without control characters, only quotes and backslashes are escaped. -/
theorem toList_escapeFieldStr_of_controlFree {s : String} (hs : ControlFree s) :
    (escapeFieldStr s).toList = escape '\\' (literally Point.isQuoteSpecial) s.toList := by
  rw [toList_escapeFieldStr]
  refine escape_congr fun c hc => ?_
  have hne : ∀ d : Char, isControl d = true → c ≠ d := by
    rintro d hd rfl
    rw [hs c hc] at hd
    cases hd
  rw [fieldStrCode, if_neg (hne '\r' rfl), if_neg (hne '\n' rfl)]

variable {F : Type} [F64 F]

/-- The loop over the metrics appends one field after another. -/
theorem toList_foldl_metrics (entries : List (String × F)) (line : String) :
    (entries.foldl (fun line (key, value) => line ++ ("," ++ escapeTag key ++ "=" ++
      F64.display value)) line).toList =
    line.toList ++ entries.flatMap fun (key, value) =>
      ',' :: Point.writeField (key, .bare (F64.display value)) := by
  induction entries generalizing line with
  | nil => simp
  | cons e entries ih =>
    rw [List.foldl_cons, ih, List.flatMap_cons]
    simp [String.toList_append, toList_escapeTag, Point.writeField, Point.writeValue]

/-- Fields after the first are written with a comma before each. -/
theorem writeFields_cons (f : String × FieldValue) (fs : List (String × FieldValue)) :
    Point.writeFields (f :: fs) =
      Point.writeField f ++ fs.flatMap fun g => ',' :: Point.writeField g := by
  induction fs generalizing f with
  | nil => simp [Point.writeFields]
  | cons g fs ih => rw [Point.writeFields_cons_cons, ih, List.flatMap_cons, List.cons_append]

/-- **The line is the point, written.** -/
theorem toList_toLineProtocol {r : ProbeResult F} (herr : ∀ err ∈ r.error, ControlFree err) :
    (toLineProtocol r).toList = (toPoint r).write := by
  obtain ⟨name, type, target, up, ms, status, error, time, metrics⟩ := r
  -- the names that the code writes itself have nothing to escape in them
  have hnames : Point.writeName "probe_result" = "probe_result".toList ∧
      Point.writeName "probe_name" = "probe_name".toList ∧
      Point.writeName "probe_type" = "probe_type".toList ∧
      Point.writeName "target" = "target".toList ∧ Point.writeName "up" = "up".toList ∧
      Point.writeName "response_ms" = "response_ms".toList ∧
      Point.writeName "status_code" = "status_code".toList ∧
      Point.writeName "error" = "error".toList := by decide
  obtain ⟨h1, h2, h3, h4, h5, h6, h7, h8⟩ := hnames
  have herr' : ∀ err, error = some err →
      (escapeFieldStr err).toList = escape '\\' (literally Point.isQuoteSpecial) err.toList :=
    fun err h => toList_escapeFieldStr_of_controlFree (herr err h)
  have hup : (if up then "1i" else "0i") = toString (if up then 1 else 0 : ℤ) ++ "i" := by
    cases up <;> rfl
  cases status <;> cases error <;>
    simp only [toLineProtocol, toPoint, Point.write, writeFields_cons, Point.writeTag,
      Point.writeField, Point.writeValue, toList_escapeTag, toList_foldl_metrics,
      String.toList_append, h1, h2, h3, h4, h5, h6, h7, h8, herr', hup, List.flatMap_map,
      List.flatMap_cons, List.flatMap_nil, Option.map_some, Option.map_none, Option.toList_some,
      Option.toList_none, List.append_assoc, List.cons_append, List.nil_append,
      List.append_nil] <;>
    rfl

/-! ### Reading a result back -/

/-- What is asked of the strings of a result: `probe_name`, `probe_type`, `target` and the metric
keys are not empty, and neither they nor the error have a control character in them. -/
structure Printable (r : ProbeResult F) : Prop where
  probeName : r.probeName ≠ "" ∧ ControlFree r.probeName
  probeType : r.probeType ≠ "" ∧ ControlFree r.probeType
  target : r.target ≠ "" ∧ ControlFree r.target
  error : ∀ err ∈ r.error, ControlFree err
  metrics : ∀ key ∈ r.metrics.keys, key ≠ "" ∧ ControlFree key

theorem toPoint_ok {r : ProbeResult F} (hr : Printable r) : (toPoint r).Ok where
  measurement := by simp [toPoint]
  tags := by simp [toPoint, hr.probeName.1, hr.probeType.1, hr.target.1]
  fields_ne_nil := by simp [toPoint]
  fields := by
    intro f hf
    simp only [toPoint, List.mem_append, List.mem_cons, List.not_mem_nil, or_false,
      Option.mem_toList, Option.map_eq_some_iff, List.mem_map] at hf
    rcases hf with (((rfl | rfl) | ⟨code, -, rfl⟩) | ⟨err, -, rfl⟩) | ⟨e, he, rfl⟩
    · refine ⟨by simp, ?_⟩
      show PlainText (if r.up then "1i" else "0i")
      split
      · exact plainText_of_all (by decide)
      · exact plainText_of_all (by decide)
    · exact ⟨by simp, F64.fixed_plain 3 r.responseMs⟩
    · exact ⟨by simp, plainText_append (plainText_nat _) (plainText_of_all (by decide))⟩
    · exact ⟨by simp, trivial⟩
    · exact ⟨(hr.metrics e.1 (List.mem_map_of_mem he)).1, F64.display_plain e.2⟩

/-- **Every point reads back to the result it was built from.** -/
theorem read_toLineProtocol {F : Type} [F64 F] {r : ProbeResult F}
    (hname : r.probeName ≠ "" ∧ ControlFree r.probeName)
    (htype : r.probeType ≠ "" ∧ ControlFree r.probeType)
    (htarget : r.target ≠ "" ∧ ControlFree r.target)
    (herror : ∀ err ∈ r.error, ControlFree err)
    (hmetrics : ∀ key ∈ r.metrics.keys, key ≠ "" ∧ ControlFree key) :
    Point.read (toLineProtocol r) = some
      { measurement := "probe_result"
        tags := [("probe_name", r.probeName), ("probe_type", r.probeType), ("target", r.target)]
        fields :=
          [("up", .bare (if r.up then "1i" else "0i")),
            ("response_ms", .bare (F64.fixed 3 r.responseMs))]
          ++ (r.statusCode.map fun code =>
              ("status_code", .bare (toString code.toNat ++ "i"))).toList
          ++ (r.error.map fun err => ("error", .quoted err)).toList
          ++ r.metrics.entries.map fun (key, value) => (key, .bare (F64.display value))
        timestamp := r.timestamp.timestampMillis } :=
  Point.read_write (toPoint_ok ⟨hname, htype, htarget, herror, hmetrics⟩)
    (toList_toLineProtocol herror)

theorem read_toLineProtocol_sample :
    Point.read (toLineProtocol sampleResult) = some (toPoint sampleResult) :=
  read_toLineProtocol (by decide) (by decide) (by decide) (by decide) (by decide)

end Huginn.Influx
