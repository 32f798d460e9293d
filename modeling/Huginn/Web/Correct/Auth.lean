import Huginn.Core.Correct.Text
import Huginn.Web.Auth

/-!
# Who may scrape

With a key, a request is served only when the bytes of its first `Authorization` header are
`Bearer ` and the key, and when the header can be turned into text (`requestIsAuthorized_iff`),
which the HTTP library does for visible ASCII only. The key file may hold any text. So all who
present the key are served exactly when it is of such characters (`served_iff_bearsKey_iff`), and
with any other key the listener starts and serves nobody.
-/

namespace Huginn.Web

variable {F : Type} [F64 F]

/-! ### Comparing without early exit -/

theorem foldl_or_xor_eq_zero_iff (pairs : List (UInt8 × UInt8)) (diff : UInt8) :
    pairs.foldl (fun diff (x, y) => diff ||| (x ^^^ y)) diff = 0 ↔
      diff = 0 ∧ ∀ p ∈ pairs, p.1 = p.2 := by
  induction pairs generalizing diff with
  | nil => simp
  | cons p pairs ih =>
    rw [List.foldl_cons, ih, UInt8.or_eq_zero_iff, UInt8.xor_eq_zero_iff, List.forall_mem_cons,
      and_assoc]

theorem forall_mem_zip_iff {a b : List UInt8} (h : a.length = b.length) :
    (∀ p ∈ a.zip b, p.1 = p.2) ↔ a = b := by
  induction a generalizing b with
  | nil =>
    have hb : b = [] := List.length_eq_zero_iff.mp h.symm
    simp [hb]
  | cons x a ih =>
    cases b with
    | nil => cases h
    | cons y b =>
      rw [List.zip_cons_cons, List.forall_mem_cons, ih (Nat.succ.inj h), List.cons.injEq]

/-- The comparison is equality. -/
theorem constantTimeEq_iff {a b : List UInt8} : constantTimeEq a b = true ↔ a = b := by
  unfold constantTimeEq
  split_ifs with hlength
  · exact iff_of_false not_false fun heq => hlength (congrArg List.length heq)
  · rw [beq_iff_eq, foldl_or_xor_eq_zero_iff, forall_mem_zip_iff (Decidable.not_not.mp hlength)]
    exact and_iff_right rfl

/-! ### Header values as text -/

/-- A byte that is visible ASCII, a space or a tab. -/
def isVisible (b : UInt8) : Bool := b == 9 || (decide (32 ≤ b) && decide (b < 127))

/-- A character that is visible ASCII, a space or a tab. -/
def VisibleChar (c : Char) : Prop := c = '\t' ∨ ' ' ≤ c ∧ c ≤ '~'

instance : DecidablePred VisibleChar := fun c =>
  inferInstanceAs (Decidable (c = '\t' ∨ ' ' ≤ c ∧ c ≤ '~'))

/-- What the HTTP library says of `HeaderValue::to_str`: it gives the text of the value when every
byte is visible. -/
structure ToStrVisible (toStr : HeaderValue → Option String) : Prop where
  eq_some_iff : ∀ v s, toStr v = some s ↔ (∀ b ∈ v.bytes, isVisible b = true) ∧ asBytes s = v.bytes

theorem isVisible_ofNat : ∀ n : ℕ, n < 0x80 →
    (isVisible (UInt8.ofNat n) = true ↔ VisibleChar (Char.ofNat n)) := by decide

theorem isVisible_of_le {b : UInt8} (h : 0x80 ≤ b.toNat) : isVisible b = false := by
  have htab : b ≠ 9 := by
    rintro rfl
    exact absurd h (by decide)
  have hlt : ¬ b < 127 := by
    rw [UInt8.lt_iff_toNat_lt]
    exact Nat.not_lt.mpr (Nat.le_trans (by decide) h)
  simp [isVisible, htab, hlt]

theorem forall_isVisible_utf8EncodeChar (c : Char) :
    (∀ b ∈ String.utf8EncodeChar c, isVisible b = true) ↔ VisibleChar c := by
  by_cases hc : c.toNat < 0x80
  · have hchar := isVisible_ofNat c.toNat hc
    rw [Char.ofNat_toNat] at hchar
    rw [utf8EncodeChar_of_ascii hc, List.forall_mem_singleton, hchar]
  · obtain ⟨b, hb⟩ := List.exists_mem_of_ne_nil _ (String.utf8EncodeChar_ne_nil (c := c))
    have hbyte := isVisible_of_le (le_of_mem_utf8EncodeChar (Nat.not_lt.mp hc) hb)
    refine iff_of_false (fun h => ?_) ?_
    · rw [h b hb] at hbyte
      cases hbyte
    · rintro (rfl | ⟨-, hle⟩)
      · exact hc (by decide)
      · have hlt : c.toNat ≤ '~'.toNat := hle
        exact hc (Nat.lt_of_le_of_lt hlt (by decide))

theorem forall_isVisible_asBytes (s : String) :
    (∀ b ∈ asBytes s, isVisible b = true) ↔ ∀ c ∈ s.toList, VisibleChar c := by
  rw [asBytes, List.forall_mem_flatMap]
  exact forall₂_congr fun c _ => forall_isVisible_utf8EncodeChar c

/-! ### The check -/

theorem stripPrefixStr_eq_some_iff {s pre rest : String} :
    stripPrefixStr s pre = some rest ↔ s = pre ++ rest := by
  unfold stripPrefixStr startsWith
  split_ifs with h
  · obtain ⟨tail, htail⟩ := List.isPrefixOf_iff_prefix.mp h
    rw [Option.some.injEq, ← htail, List.drop_left, ← String.toList_inj, ← String.toList_inj,
      String.toList_append, ← htail, List.append_cancel_left_eq, String.toList_ofList]
  · refine iff_of_false (fun heq => nomatch heq) ?_
    rintro rfl
    exact h (List.isPrefixOf_iff_prefix.mpr ⟨rest.toList, (String.toList_append).symm⟩)

/-- The first `Authorization` header is `Bearer ` and the key. -/
def BearsKey (headers : HeaderMap) (key : String) : Prop :=
  ∃ v, headers.get "authorization" = some v ∧ v.bytes = asBytes "Bearer " ++ asBytes key

variable {toStr : HeaderValue → Option String}

/-- A request is let through when its header is the right one and can be turned into text. -/
theorem requestIsAuthorized_iff (htext : ToStrVisible toStr) {headers : HeaderMap} {key : String} :
    requestIsAuthorized toStr headers key = true ↔
      BearsKey headers key ∧ ∀ c ∈ key.toList, VisibleChar c := by
  have hbearer : ∀ b ∈ asBytes "Bearer ", isVisible b = true :=
    List.all_eq_true.mp (by decide)
  unfold requestIsAuthorized
  constructor
  · intro h
    split at h
    · cases h
    · next value hvalue =>
      split at h
      · cases h
      · next presented hpresented =>
        obtain ⟨v, hv, htoStr⟩ := Option.bind_eq_some_iff.mp hvalue
        obtain ⟨hvisible, hbytes⟩ := (htext.eq_some_iff v value).mp htoStr
        have hkey : presented = key := asBytes_injective (constantTimeEq_iff.mp h)
        rw [stripPrefixStr_eq_some_iff.mp hpresented, asBytes_append, hkey] at hbytes
        refine ⟨⟨v, hv, hbytes.symm⟩, (forall_isVisible_asBytes key).mp fun b hb => ?_⟩
        apply hvisible
        rw [← hbytes]
        exact List.mem_append_right _ hb
  · rintro ⟨⟨v, hv, hbytes⟩, hkey⟩
    have hvisible : ∀ b ∈ v.bytes, isVisible b = true := by
      rw [hbytes, List.forall_mem_append]
      exact ⟨hbearer, (forall_isVisible_asBytes key).mpr hkey⟩
    have hvalue : toStr v = some ("Bearer " ++ key) := by
      rw [htext.eq_some_iff, asBytes_append]
      exact ⟨hvisible, hbytes.symm⟩
    have hstrip : stripPrefixStr ("Bearer " ++ key) "Bearer " = some key :=
      stripPrefixStr_eq_some_iff.mpr rfl
    rw [hv, Option.bind_some, hvalue]
    simp only [hstrip]
    exact constantTimeEq_iff.mpr rfl

/-! ### Scrapes -/

theorem metricsResponse_ne_unauthorized (state : MetricsState F) :
    metricsResponse state ≠ unauthorized := by
  intro h
  have hstatus : (200 : UInt16) = 401 := congrArg Response.status h
  exact absurd hstatus (by decide)

/-- The request is answered with the metrics. -/
def Served (toStr : HeaderValue → Option String) (state : MetricsState F) (headers : HeaderMap) :
    Prop := handlePrometheus toStr state headers = metricsResponse state

theorem served_iff (htext : ToStrVisible toStr) (results : HashMap String (ProbeResult F))
    (stats : WriteStats) (key : String) (headers : HeaderMap) :
    Served toStr ⟨results, stats, some key⟩ headers ↔
      BearsKey headers key ∧ ∀ c ∈ key.toList, VisibleChar c := by
  rw [← requestIsAuthorized_iff htext]
  unfold Served handlePrometheus
  by_cases hauth : requestIsAuthorized toStr headers key = true
  · simp only [hauth, if_true]
  · simp only [hauth]
    exact iff_of_false (metricsResponse_ne_unauthorized _).symm Bool.false_ne_true

/-- The header value with `Bearer ` and a key. -/
def bearerValue (key : String) (h : ∀ b ∈ asBytes key, isHeaderByte b = true) : HeaderValue where
  bytes := asBytes "Bearer " ++ asBytes key
  valid := List.forall_mem_append.mpr ⟨List.all_eq_true.mp (by decide), h⟩

theorem bearsKey_bearerValue {key : String} (h : ∀ b ∈ asBytes key, isHeaderByte b = true) :
    BearsKey [("authorization", bearerValue key h)] key := ⟨bearerValue key h, rfl, rfl⟩

/-- **Authentication is exact for a key of visible characters, and only for one.** Whatever the key
that can be written in a header: whoever is served has presented it, and whoever presents it is
served if and only if it is made of visible ASCII, spaces and tabs. -/
theorem served_iff_bearsKey_iff (htext : ToStrVisible toStr) {key : String}
    (hkey : ∀ b ∈ asBytes key, isHeaderByte b = true)
    (results : HashMap String (ProbeResult F)) (stats : WriteStats) :
    (∀ headers, Served toStr ⟨results, stats, some key⟩ headers → BearsKey headers key) ∧
    ((∀ headers, Served toStr ⟨results, stats, some key⟩ headers ↔ BearsKey headers key) ↔
      ∀ c ∈ key.toList, VisibleChar c) := by
  refine ⟨fun headers h => ((served_iff htext results stats key headers).mp h).1, ?_⟩
  constructor
  · intro h
    have hserved := (h _).mpr (bearsKey_bearerValue hkey)
    exact ((served_iff htext results stats key _).mp hserved).2
  · intro hvisible headers
    rw [served_iff htext results stats key headers]
    exact and_iff_left hvisible

/-! ### Two keys -/

/-- `HeaderValue::to_str` on a value of visible bytes. -/
def visibleText (v : HeaderValue) : Option String :=
  if v.bytes.all isVisible then
    some (String.ofList (v.bytes.map fun b => Char.ofNat b.toNat))
  else none

theorem asBytes_ofList_map_ofNat {bytes : List UInt8} (h : ∀ b ∈ bytes, isVisible b = true) :
    asBytes (String.ofList (bytes.map fun b => Char.ofNat b.toNat)) = bytes := by
  rw [asBytes, String.toList_ofList, List.flatMap_map]
  induction bytes with
  | nil => rfl
  | cons b bytes ih =>
    rw [List.forall_mem_cons] at h
    have hlt : b.toNat < 0x80 := by
      by_contra hge
      have hbyte := isVisible_of_le (Nat.not_lt.mp hge)
      rw [h.1] at hbyte
      cases hbyte
    have hchar : (Char.ofNat b.toNat).toNat = b.toNat :=
      toNat_charOfNat_of_valid (.inl (Nat.lt_trans hlt (by decide)))
    rw [List.flatMap_cons, ih h.2, utf8EncodeChar_of_ascii (by rwa [hchar]), hchar,
      UInt8.ofNat_toNat]
    rfl

theorem toStrVisible_visibleText : ToStrVisible visibleText where
  eq_some_iff v s := by
    unfold visibleText
    split_ifs with hall
    · have hvisible : ∀ b ∈ v.bytes, isVisible b = true := List.all_eq_true.mp hall
      rw [Option.some.injEq, and_iff_right hvisible]
      constructor
      · rintro rfl
        exact asBytes_ofList_map_ofNat hvisible
      · intro h
        exact asBytes_injective ((asBytes_ofList_map_ofNat hvisible).trans h.symm)
    · exact iff_of_false (fun h => nomatch h) fun h => hall (List.all_eq_true.mpr h.1)

/-- The key file of a metrics section. -/
def keyFileConfig : MetricsConfig :=
  { MetricsConfig.default with apiKeyFile := some "/run/secrets/metrics_api_key" }

theorem served_iff_bearsKey_iff_sekrit :
    (∀ headers, Served visibleText (⟨.empty, .default, some "sekrit key"⟩ : MetricsState Decimal)
      headers → BearsKey headers "sekrit key") ∧
    ((∀ headers, Served visibleText (⟨.empty, .default, some "sekrit key"⟩ : MetricsState Decimal)
      headers ↔ BearsKey headers "sekrit key") ↔
      ∀ c ∈ "sekrit key".toList, VisibleChar c) :=
  served_iff_bearsKey_iff toStrVisible_visibleText (List.all_eq_true.mp (by decide)) .empty .default

/-- A key with an umlaut is read and can be written in a header, but who presents it is turned
away. -/
theorem umlaut_key_turned_away :
    keyFileConfig.readApiKey (fun _ => .ok "schlüssel\n") = .ok (some "schlüssel") ∧
    (∀ b ∈ asBytes "schlüssel", isHeaderByte b = true) ∧
    ToStrVisible visibleText ∧
    ∃ headers, BearsKey headers "schlüssel" ∧
      ¬ Served visibleText (⟨.empty, .default, some "schlüssel"⟩ : MetricsState Decimal)
        headers := by
  have hkey : ∀ b ∈ asBytes "schlüssel", isHeaderByte b = true :=
    List.all_eq_true.mp (by decide)
  refine ⟨by decide, hkey, toStrVisible_visibleText, _, bearsKey_bearerValue hkey, ?_⟩
  rw [served_iff toStrVisible_visibleText]
  rintro ⟨-, hvisible⟩
  exact absurd (hvisible 'ü' (by decide)) (by decide)

end Huginn.Web
