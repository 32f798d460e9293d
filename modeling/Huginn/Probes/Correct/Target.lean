import Huginn.Core.Correct.Load
import Huginn.Core.Correct.Text
import Huginn.Probes.Probe

/-!
# The target of a TLS probe, checked and used

The check of the config and the probe split a target at its last colon, each in its own way: the
check asks for something before it, and the probe for something that is left of it without
brackets. They agree on every target that does not begin with brackets only (`targetAgrees_iff`).
-/

namespace Huginn.Probes

variable {F : Type}

/-- A text without a leading `[`, and without a trailing `]` of what is left. -/
def unbracketed (before : List Char) : List Char :=
  let rest := if before.head? = some '[' then before.tail else before
  if rest.getLast? = some ']' then rest.dropLast else rest

/-- A probe, as a TLS probe of a target. -/
def tlsProbe (p : ProbeConfig F) (t : String) : ProbeConfig F :=
  { p with probeType := .tls, target := t }

/-- The check and the probe agree on a target, and the probe takes it apart rightly. -/
structure TargetAgrees (p : ProbeConfig F) (t : String) : Prop where
  accepted_iff : (tlsProbe p t).validateTarget = .ok () ↔ (splitHostPort t).isSome = true
  parts : ∀ host port, splitHostPort t = some (host, port) → ∃ before after : String,
    t = before ++ ":" ++ after ∧ ':' ∉ after.toList ∧
      parseUnsigned 0xFFFF after = some port.toNat ∧
      host.toList = unbracketed before.toList ∧ host ≠ ""

/-- Before the last colon there are brackets only, and after it there is a port. -/
def BracketsOnly (t : String) : Prop :=
  ∃ before ∈ ["[", "]", "[]"], ∃ after : String,
    t = before ++ ":" ++ after ∧ ':' ∉ after.toList ∧ (parseUnsigned 0xFFFF after).isSome = true

/-! ### Brackets -/

theorem toList_getD_stripPrefix (s : String) (c : Char) : ((stripPrefix s c).getD s).toList =
    if s.toList.head? = some c then s.toList.tail else s.toList := by
  unfold stripPrefix
  split
  · next x rest heq =>
    by_cases hx : x = c
    · simp [heq, hx]
    · simp [heq, hx]
  · next heq => simp [heq]

theorem toList_getD_stripSuffix (s : String) (c : Char) : ((stripSuffix s c).getD s).toList =
    if s.toList.getLast? = some c then s.toList.dropLast else s.toList := by
  unfold stripSuffix
  split_ifs
  · exact String.toList_ofList
  · rfl

/-- Nothing is left of brackets, and something of any other text. -/
theorem unbracketed_eq_nil_iff {before : List Char} :
    unbracketed before = [] ↔ before ∈ [[], ['['], [']'], ['[', ']']] := by
  have hsuffix : ∀ rest : List Char,
      (if rest.getLast? = some ']' then rest.dropLast else rest) = [] ↔
        rest = [] ∨ rest = [']'] := by
    intro rest
    split_ifs with hlast
    · rcases List.eq_nil_or_concat rest with rfl | ⟨init, last, rfl⟩
      · cases hlast
      · obtain rfl : last = ']' := by simpa using hlast
        simp
    · refine (or_iff_left ?_).symm
      rintro rfl
      exact hlast rfl
  unfold unbracketed
  rw [hsuffix]
  cases before with
  | nil => simp
  | cons c before =>
    by_cases hc : c = '['
    · subst hc
      simp
    · simp [hc]

theorem unbracketed_toList_eq_nil_iff {before : String} :
    unbracketed before.toList = [] ↔ before = "" ∨ before ∈ ["[", "]", "[]"] := by
  rw [unbracketed_eq_nil_iff]
  simp only [List.mem_cons, List.not_mem_nil, or_false, ← String.toList_inj]
  rfl

/-! ### Both splitters -/

/-- The target is split at its last colon, the brackets are taken off, and then it is looked at. -/
theorem splitHostPort_eq_some_iff {t host : String} {port : UInt16} :
    splitHostPort t = some (host, port) ↔ ∃ before after : String,
      rsplitOnce t ':' = some (before, after) ∧ host.toList = unbracketed before.toList ∧
        host ≠ "" ∧ parseUnsigned 0xFFFF after = some port.toNat := by
  have hhost : ∀ before : String, ((stripSuffix ((stripPrefix before '[').getD before) ']').getD
      ((stripPrefix before '[').getD before)).toList = unbracketed before.toList := by
    intro before
    rw [toList_getD_stripSuffix, toList_getD_stripPrefix]
    rfl
  unfold splitHostPort
  rw [Option.bind_eq_bind, Option.bind_eq_some_iff]
  constructor
  · rintro ⟨⟨before, after⟩, hsplit, h⟩
    dsimp only at h
    split_ifs at h with hempty
    obtain ⟨n, hn, heq⟩ := Option.map_eq_some_iff.mp h
    obtain ⟨rfl, rfl⟩ := Prod.mk.inj heq
    refine ⟨before, after, hsplit, hhost before, hempty, ?_⟩
    rw [UInt16.toNat_ofNat_of_lt' (Nat.lt_succ_of_le (parseUnsigned_le hn))]
    exact hn
  · rintro ⟨before, after, hsplit, hlist, hne, hport⟩
    obtain rfl : host = _ := String.toList_inj.mp (hlist.trans (hhost before).symm)
    refine ⟨(before, after), hsplit, ?_⟩
    dsimp only
    rw [if_neg hne, hport, Option.map_some, UInt16.ofNat_toNat]

theorem splitHostPort_isSome_iff {t : String} : (splitHostPort t).isSome = true ↔
    ∃ before after : String, rsplitOnce t ':' = some (before, after) ∧
      unbracketed before.toList ≠ [] ∧ (parseUnsigned 0xFFFF after).isSome = true := by
  rw [Option.isSome_iff_exists]
  constructor
  · rintro ⟨⟨host, port⟩, h⟩
    obtain ⟨before, after, hsplit, hhost, hne, hport⟩ := splitHostPort_eq_some_iff.mp h
    refine ⟨before, after, hsplit, ?_, by rw [hport]; rfl⟩
    rw [← hhost]
    exact String.toList_eq_nil_iff.not.mpr hne
  · rintro ⟨before, after, hsplit, hne, hport⟩
    obtain ⟨n, hn⟩ := Option.isSome_iff_exists.mp hport
    refine ⟨(String.ofList (unbracketed before.toList), .ofNat n), ?_⟩
    refine splitHostPort_eq_some_iff.mpr ⟨before, after, hsplit, String.toList_ofList, ?_, ?_⟩
    · rwa [ne_eq, String.ofList_eq_empty_iff]
    · rw [UInt16.toNat_ofNat_of_lt' (Nat.lt_succ_of_le (parseUnsigned_le hn))]
      exact hn

theorem hasPortSuffix_iff {t : String} : hasPortSuffix t = true ↔
    ∃ before after : String, rsplitOnce t ':' = some (before, after) ∧ before ≠ "" ∧
      (parseUnsigned 0xFFFF after).isSome = true := by
  unfold hasPortSuffix
  constructor
  · intro h
    split at h
    · next before after hsplit =>
      rw [Bool.and_eq_true, decide_eq_true_eq] at h
      exact ⟨before, after, hsplit, h⟩
    · cases h
  · rintro ⟨before, after, hsplit, hne, hport⟩
    rw [hsplit]
    simp only [Bool.and_eq_true, decide_eq_true_eq]
    exact ⟨hne, hport⟩

theorem rsplitOnce_colon_iff {t before after : String} :
    rsplitOnce t ':' = some (before, after) ↔ t = before ++ ":" ++ after ∧ ':' ∉ after.toList := by
  rw [rsplitOnce_eq_some_iff, ← String.toList_inj]
  simp

/-! ### Where they disagree -/

/-- What the probe can use passes the check. -/
theorem hasPortSuffix_of_isSome {t : String} (h : (splitHostPort t).isSome = true) :
    hasPortSuffix t = true := by
  obtain ⟨before, after, hsplit, hleft, hport⟩ := splitHostPort_isSome_iff.mp h
  have hne : before ≠ "" := by
    rintro rfl
    exact hleft (unbracketed_toList_eq_nil_iff.mpr (.inl rfl))
  exact hasPortSuffix_iff.mpr ⟨before, after, hsplit, hne, hport⟩

/-- What passes the check and cannot be used has nothing but brackets for a host. -/
theorem bracketsOnly_iff {t : String} :
    BracketsOnly t ↔ hasPortSuffix t = true ∧ ¬ (splitHostPort t).isSome = true := by
  constructor
  · rintro ⟨before, hmem, after, ht, hcolon, hport⟩
    have hsplit := rsplitOnce_colon_iff.mpr ⟨ht, hcolon⟩
    have hne : before ≠ "" := by
      rintro rfl
      exact absurd hmem (by decide)
    refine ⟨hasPortSuffix_iff.mpr ⟨before, after, hsplit, hne, hport⟩, fun hsome => ?_⟩
    obtain ⟨before', after', hsplit', hleft, -⟩ := splitHostPort_isSome_iff.mp hsome
    rw [hsplit] at hsplit'
    obtain ⟨rfl, rfl⟩ := Prod.mk.inj (Option.some.inj hsplit')
    exact hleft (unbracketed_toList_eq_nil_iff.mpr (.inr hmem))
  · rintro ⟨hsuffix, hnone⟩
    obtain ⟨before, after, hsplit, hne, hport⟩ := hasPortSuffix_iff.mp hsuffix
    obtain ⟨ht, hcolon⟩ := rsplitOnce_colon_iff.mp hsplit
    have hnil : unbracketed before.toList = [] := by
      by_contra hleft
      exact hnone (splitHostPort_isSome_iff.mpr ⟨before, after, hsplit, hleft, hport⟩)
    rcases unbracketed_toList_eq_nil_iff.mp hnil with hempty | hmem
    · exact absurd hempty hne
    · exact ⟨before, hmem, after, ht, hcolon, hport⟩

/-- What the probe takes a target apart into. -/
theorem parts_of_splitHostPort {t host : String} {port : UInt16}
    (h : splitHostPort t = some (host, port)) : ∃ before after : String,
      t = before ++ ":" ++ after ∧ ':' ∉ after.toList ∧
        parseUnsigned 0xFFFF after = some port.toNat ∧
        host.toList = unbracketed before.toList ∧ host ≠ "" := by
  obtain ⟨before, after, hsplit, hhost, hne, hport⟩ := splitHostPort_eq_some_iff.mp h
  obtain ⟨ht, hcolon⟩ := rsplitOnce_colon_iff.mp hsplit
  exact ⟨before, after, ht, hcolon, hport, hhost, hne⟩

/-- **The check and the probe agree on every target, except where there is nothing but brackets for
a host.** Such a target is accepted, and the probe cannot use it. -/
theorem targetAgrees_iff (p : ProbeConfig F) (t : String) :
    TargetAgrees p t ↔ ¬ BracketsOnly t := by
  have haccepted : (tlsProbe p t).validateTarget = .ok () ↔ hasPortSuffix t = true :=
    ProbeConfig.validateTarget_eq_ok_iff _
  rw [bracketsOnly_iff, not_and_not_right]
  constructor
  · intro h hsuffix
    exact h.accepted_iff.mp (haccepted.mpr hsuffix)
  · intro h
    exact ⟨haccepted.trans ⟨h, hasPortSuffix_of_isSome⟩, fun _ _ => parts_of_splitHostPort⟩

/-- An IPv6 literal that was left out. -/
theorem empty_brackets_disagree :
    (tlsProbe (.default : ProbeConfig Decimal) "[]:443").validateTarget = .ok () ∧
      splitHostPort "[]:443" = none := by decide

end Huginn.Probes
