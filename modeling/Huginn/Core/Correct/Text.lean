import Huginn.Core.Text

/-!
# What is known of texts and their bytes

Decoding bytes that are not UTF-8 puts replacement characters into the text, but it does not touch
what is ASCII: a decoded text begins with an ASCII text exactly when the bytes begin with the bytes
of that text (`startsWith_fromUtf8Lossy`). And it is empty only when there were no bytes
(`fromUtf8Lossy_eq_empty_iff`).

The other way round, the bytes of an ASCII character are its code, and those of any other character
are all beyond ASCII. And a text is split at the last occurrence of a character
(`rsplitOnce_eq_some_iff`).
-/

namespace Huginn

/-- The bytes of an ASCII text. -/
def asciiBytes (s : String) : List UInt8 := s.toList.map fun c => UInt8.ofNat c.toNat

/-- A text of ASCII characters other than NUL. -/
def Ascii (s : String) : Prop := ∀ c ∈ s.toList, 0 < c.toNat ∧ c.toNat < 0x80

instance (s : String) : Decidable (Ascii s) :=
  decidable_of_iff (s.toList.all (fun c => decide (0 < c.toNat ∧ c.toNat < 0x80)) = true)
    (by simp [Ascii])

theorem toNat_charOfNat_of_valid {n : ℕ} (h : n.isValidChar) : (Char.ofNat n).toNat = n := by
  rw [Char.ofNat, dif_pos h]
  rfl

/-- A number that is no character gives NUL. -/
theorem toNat_charOfNat (n : ℕ) : (Char.ofNat n).toNat = n ∨ (Char.ofNat n).toNat = 0 := by
  by_cases h : n.isValidChar
  · exact .inl (toNat_charOfNat_of_valid h)
  · refine .inr ?_
    rw [Char.ofNat, dif_neg h]
    rfl

/-! ### Sequences of more than one byte -/

/-- Between the bytes of a sequence that cannot encode an ASCII character, however it goes on. -/
def Utf8State.Long (st : Utf8State) : Prop :=
  0x80 ≤ st.low ∧
    (st.owed = 1 ∧ 0x80 ≤ st.bits * 64 + (st.low - 0x80) ∨
      st.owed = 2 ∧ 0x80 ≤ (st.bits * 64 + (st.low - 0x80)) * 64 ∨
      st.owed = 3 ∧ 0x80 ≤ (st.bits * 64 + (st.low - 0x80)) * 4096)

theorem Utf8State.Long.one {bits low high : ℕ} (hlow : 0x80 ≤ low)
    (hbits : 0x80 ≤ bits * 64 + (low - 0x80)) : Utf8State.Long ⟨bits, 1, low, high⟩ :=
  ⟨hlow, .inl ⟨rfl, hbits⟩⟩

theorem Utf8State.Long.two {bits low high : ℕ} (hlow : 0x80 ≤ low)
    (hbits : 0x80 ≤ (bits * 64 + (low - 0x80)) * 64) : Utf8State.Long ⟨bits, 2, low, high⟩ :=
  ⟨hlow, .inr (.inl ⟨rfl, hbits⟩)⟩

theorem Utf8State.Long.three {bits low high : ℕ} (hlow : 0x80 ≤ low)
    (hbits : 0x80 ≤ (bits * 64 + (low - 0x80)) * 4096) : Utf8State.Long ⟨bits, 3, low, high⟩ :=
  ⟨hlow, .inr (.inr ⟨rfl, hbits⟩)⟩

theorem Utf8State.Long.owed_ne {st : Utf8State} (h : st.Long) : st.owed ≠ 0 := by
  obtain ⟨-, ⟨h, -⟩ | ⟨h, -⟩ | ⟨h, -⟩⟩ := h <;> omega

/-- A first byte above ASCII is malformed, or begins such a sequence. -/
theorem utf8First_of_gt {b : ℕ} (h : 0x7F < b) :
    utf8First b = ([replacementChar], .start) ∨ ∃ st, utf8First b = ([], st) ∧ st.Long := by
  unfold utf8First
  rw [if_neg (Nat.not_le.mpr h)]
  split_ifs with h2 h3 h4 h5 h6 h7 h8
  · exact .inr ⟨_, rfl, .one (by omega) (by omega)⟩
  · exact .inr ⟨_, rfl, .two (by omega) (by omega)⟩
  · exact .inr ⟨_, rfl, .two (by omega) (by omega)⟩
  · exact .inr ⟨_, rfl, .two (by omega) (by omega)⟩
  · exact .inr ⟨_, rfl, .three (by omega) (by omega)⟩
  · exact .inr ⟨_, rfl, .three (by omega) (by omega)⟩
  · exact .inr ⟨_, rfl, .three (by omega) (by omega)⟩
  · exact .inl rfl

/-- One more byte: a character that is not ASCII, or the sequence goes on. -/
theorem utf8Step_of_long {st : Utf8State} (h : st.Long) (byte : UInt8) :
    (∃ c cs st', utf8Step st byte = (c :: cs, st') ∧ ¬ (0 < c.toNat ∧ c.toNat < 0x80)) ∨
      ∃ st', utf8Step st byte = ([], st') ∧ st'.Long := by
  have howed := h.owed_ne
  obtain ⟨hlow, hbits⟩ := h
  unfold utf8Step
  rw [if_neg howed]
  split_ifs with hrange hone
  · -- the last byte, which completes a character beyond ASCII
    refine .inl ⟨_, [], _, rfl, ?_⟩
    have hchar := toNat_charOfNat (st.bits * 64 + (byte.toNat - 0x80))
    omega
  · refine .inr ⟨_, rfl, ?_⟩
    rcases hbits with ⟨h1, -⟩ | ⟨h2, hbits⟩ | ⟨h3, hbits⟩
    · exact absurd h1 hone
    · rw [h2]
      exact .one (by omega) (by omega)
    · rw [h3]
      exact .two (by omega) (by omega)
  · refine .inl ⟨replacementChar, _, _, rfl, ?_⟩
    decide

/-- The first character of such a sequence is not ASCII. -/
theorem head_utf8Decode_of_long {st : Utf8State} (h : st.Long) (bytes : List UInt8) :
    ∃ c cs, utf8Decode st bytes = c :: cs ∧ ¬ (0 < c.toNat ∧ c.toNat < 0x80) := by
  induction bytes generalizing st with
  | nil => exact ⟨replacementChar, [], if_neg h.owed_ne, by decide⟩
  | cons b bytes ih =>
    rcases utf8Step_of_long h b with ⟨c, cs, st', hstep, hc⟩ | ⟨st', hstep, hst'⟩
    · refine ⟨c, cs ++ utf8Decode st' bytes, ?_, hc⟩
      rw [utf8Decode, hstep]
      rfl
    · obtain ⟨c, cs, hdecode, hc⟩ := ih hst'
      refine ⟨c, cs, ?_, hc⟩
      rw [utf8Decode, hstep]
      exact hdecode

/-! ### Between two characters -/

theorem utf8Decode_of_le {b : UInt8} (h : b.toNat ≤ 0x7F) (bytes : List UInt8) :
    utf8Decode .start (b :: bytes) = Char.ofNat b.toNat :: utf8Decode .start bytes := by
  have hfirst : utf8Step .start b = ([Char.ofNat b.toNat], .start) := by
    show utf8First b.toNat = _
    exact if_pos h
  rw [utf8Decode, hfirst]
  rfl

theorem head_utf8Decode_of_gt {b : UInt8} (h : 0x7F < b.toNat) (bytes : List UInt8) :
    ∃ c cs, utf8Decode .start (b :: bytes) = c :: cs ∧ ¬ (0 < c.toNat ∧ c.toNat < 0x80) := by
  have hstep : utf8Step .start b = utf8First b.toNat := rfl
  rcases utf8First_of_gt h with hfirst | ⟨st, hfirst, hst⟩
  · refine ⟨replacementChar, utf8Decode .start bytes, ?_, by decide⟩
    rw [utf8Decode, hstep, hfirst]
    rfl
  · obtain ⟨c, cs, hdecode, hc⟩ := head_utf8Decode_of_long hst bytes
    refine ⟨c, cs, ?_, hc⟩
    rw [utf8Decode, hstep, hfirst]
    exact hdecode

theorem utf8Decode_ne_nil (b : UInt8) (bytes : List UInt8) :
    utf8Decode .start (b :: bytes) ≠ [] := by
  by_cases h : b.toNat ≤ 0x7F
  · rw [utf8Decode_of_le h]
    exact List.cons_ne_nil _ _
  · obtain ⟨c, cs, hdecode, -⟩ := head_utf8Decode_of_gt (Nat.not_le.mp h) bytes
    rw [hdecode]
    exact List.cons_ne_nil _ _

/-- Only no bytes decode to the empty text. -/
theorem fromUtf8Lossy_eq_empty_iff {bytes : List UInt8} :
    fromUtf8Lossy bytes = "" ↔ bytes = [] := by
  rw [fromUtf8Lossy, String.ofList_eq_empty_iff]
  cases bytes with
  | nil => exact iff_of_true rfl rfl
  | cons b bytes => exact iff_of_false (utf8Decode_ne_nil b bytes) (List.cons_ne_nil _ _)

theorem toNat_ofNat_of_ascii {c : Char} (h : c.toNat < 0x80) :
    (UInt8.ofNat c.toNat).toNat = c.toNat :=
  UInt8.toNat_ofNat_of_lt' (Nat.lt_trans h (by decide))

/-- An ASCII character is the one of a byte exactly when the byte is the one of the character. -/
theorem charOfNat_toNat_eq_iff {b : UInt8} {c : Char} (hb : b.toNat ≤ 0x7F) (hc : c.toNat < 0x80) :
    c = Char.ofNat b.toNat ↔ UInt8.ofNat c.toNat = b := by
  constructor
  · rintro rfl
    have hvalid : b.toNat.isValidChar := .inl (by omega)
    rw [toNat_charOfNat_of_valid hvalid, UInt8.ofNat_toNat]
  · rintro rfl
    rw [toNat_ofNat_of_ascii hc, Char.ofNat_toNat]

theorem isPrefixOf_utf8Decode {cs : List Char} (h : ∀ c ∈ cs, 0 < c.toNat ∧ c.toNat < 0x80)
    (bytes : List UInt8) : cs.isPrefixOf (utf8Decode .start bytes) = true ↔
      cs.map (fun c => UInt8.ofNat c.toNat) <+: bytes := by
  induction cs generalizing bytes with
  | nil => simp
  | cons c cs ih =>
    have hc := h c List.mem_cons_self
    cases bytes with
    | nil => simp [utf8Decode, Utf8State.start]
    | cons b bytes =>
      rw [List.map_cons, List.cons_prefix_cons]
      by_cases hb : b.toNat ≤ 0x7F
      · rw [utf8Decode_of_le hb, List.isPrefixOf_cons_cons, Bool.and_eq_true, beq_iff_eq,
          charOfNat_toNat_eq_iff hb hc.2, ih fun d hd => h d (List.mem_cons_of_mem c hd)]
      · obtain ⟨d, ds, hdecode, hd⟩ := head_utf8Decode_of_gt (Nat.not_le.mp hb) bytes
        rw [hdecode, List.isPrefixOf_cons_cons, Bool.and_eq_true, beq_iff_eq]
        refine iff_of_false ?_ ?_
        · rintro ⟨rfl, -⟩
          exact hd hc
        · rintro ⟨rfl, -⟩
          rw [toNat_ofNat_of_ascii hc.2] at hb
          omega

/-- **A decoded text begins with an ASCII text when the bytes do.** -/
theorem startsWith_fromUtf8Lossy {pre : String} (h : Ascii pre) (bytes : List UInt8) :
    startsWith (fromUtf8Lossy bytes) pre = true ↔ asciiBytes pre <+: bytes := by
  rw [startsWith, fromUtf8Lossy, String.toList_ofList]
  exact isPrefixOf_utf8Decode h bytes

/-! ### The bytes of a text -/

theorem asBytes_append (s t : String) : asBytes (s ++ t) = asBytes s ++ asBytes t := by
  rw [asBytes, String.toList_append, List.flatMap_append]
  rfl

theorem utf8EncodeChar_of_ascii {c : Char} (h : c.toNat < 0x80) :
    String.utf8EncodeChar c = [UInt8.ofNat c.toNat] := by
  have hle : c.val.toNat ≤ 0x7F := Nat.le_of_lt_succ h
  unfold String.utf8EncodeChar
  exact if_pos hle

/-- The bytes of any other character are beyond ASCII. -/
theorem le_of_mem_utf8EncodeChar {c : Char} (h : 0x80 ≤ c.toNat) {b : UInt8}
    (hb : b ∈ String.utf8EncodeChar c) : 0x80 ≤ b.toNat := by
  have hofNat : ∀ n, 0x80 ≤ n → n < 256 → 0x80 ≤ (UInt8.ofNat n).toNat := by
    intro n hle hlt
    rwa [UInt8.toNat_ofNat_of_lt' hlt]
  have hgt : ¬ c.val.toNat ≤ 0x7F := Nat.not_le.mpr h
  unfold String.utf8EncodeChar at hb
  simp only [if_neg hgt] at hb
  split_ifs at hb <;> simp only [List.mem_cons, List.not_mem_nil, or_false] at hb
  · rcases hb with rfl | rfl <;> exact hofNat _ (by omega) (by omega)
  · rcases hb with rfl | rfl | rfl <;> exact hofNat _ (by omega) (by omega)
  · rcases hb with rfl | rfl | rfl | rfl <;> exact hofNat _ (by omega) (by omega)

/-! ### Splitting -/

theorem rsplitOnce_of_eq {s : String} {c : Char} {a b : List Char} (hs : s.toList = a ++ c :: b)
    (hc : c ∉ b) : rsplitOnce s c = some (String.ofList a, String.ofList b) := by
  have hrev : s.toList.reverse = b.reverse ++ c :: a.reverse := by
    rw [hs, List.reverse_append, List.reverse_cons, List.append_assoc, List.singleton_append]
  have hbefore : ∀ d ∈ b.reverse, decide (d ≠ c) = true := by
    intro d hd
    refine decide_eq_true ?_
    rintro rfl
    exact hc (List.mem_reverse.mp hd)
  have htake : s.toList.reverse.takeWhile (· ≠ c) = b.reverse := by
    rw [hrev, List.takeWhile_append_of_pos hbefore, List.takeWhile_cons_of_neg (by simp),
      List.append_nil]
  have hdrop : s.toList.reverse.drop (b.reverse.length + 1) = a.reverse := by
    rw [hrev, ← List.drop_drop, List.drop_left]
    rfl
  have hmem : c ∈ s.toList.reverse := by
    rw [hrev]
    exact List.mem_append_right _ List.mem_cons_self
  simp only [rsplitOnce, if_pos hmem, htake, hdrop, List.reverse_reverse]

theorem rsplitOnce_of_not_mem {s : String} {c : Char} (h : c ∉ s.toList) :
    rsplitOnce s c = none := by
  unfold rsplitOnce
  exact if_neg fun hmem => h (List.mem_reverse.mp hmem)

/-- A text is split at the last occurrence of the character. -/
theorem rsplitOnce_eq_some_iff {s a b : String} {c : Char} :
    rsplitOnce s c = some (a, b) ↔ s.toList = a.toList ++ c :: b.toList ∧ c ∉ b.toList := by
  constructor
  · intro h
    by_cases hmem : c ∈ s.toList
    · obtain ⟨after, before, hrev, hc⟩ := List.eq_append_cons_of_mem (List.mem_reverse.mpr hmem)
      have hs : s.toList = before.reverse ++ c :: after.reverse := by
        rw [← List.reverse_reverse s.toList, hrev]
        simp
      rw [rsplitOnce_of_eq hs (by rwa [List.mem_reverse])] at h
      obtain ⟨rfl, rfl⟩ := Prod.mk.inj (Option.some.inj h)
      rw [String.toList_ofList, String.toList_ofList]
      exact ⟨hs, by rwa [List.mem_reverse]⟩
    · rw [rsplitOnce_of_not_mem hmem] at h
      cases h
  · rintro ⟨hs, hc⟩
    rw [rsplitOnce_of_eq hs hc, String.ofList_toList, String.ofList_toList]

theorem parseUnsigned_le {max n : ℕ} {s : String} (h : parseUnsigned max s = some n) : n ≤ max := by
  unfold parseUnsigned at h
  dsimp only at h
  split_ifs at h
  all_goals exact of_decide_eq_true (Option.filter_eq_some_iff.mp h).2

end Huginn
