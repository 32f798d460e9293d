import Mathlib.Data.List.Infix
import Mathlib.Algebra.Order.BigOperators.Group.List
import Mathlib.Algebra.Ring.Nat
import Mathlib.Tactic.Common

/-!
# A bounded first-in first-out buffer that drops its oldest entries

Entries carry a weight, and the buffer a capacity. Appending an entry first drops entries from the
front until the new one fits (`trim`), so the contents afterwards (`pushTrim`) are the longest
suffix of "old contents, then the new entry" whose weight is within the capacity (`IsLongestFit`,
`isLongestFit_pushTrim`); an entry that is heavier than the whole capacity is kept alone
(`pushTrim_of_lt`).
-/

namespace Huginn.DropOldest

variable {α : Type*} (w : α → ℕ) (cap : ℕ)

/-- The total weight of a list of entries. -/
def weight (l : List α) : ℕ := (l.map w).sum

@[simp]
theorem weight_nil : weight w [] = 0 := rfl

@[simp]
theorem weight_cons (a : α) (l : List α) : weight w (a :: l) = w a + weight w l := by
  simp [weight]

@[simp]
theorem weight_append (l₁ l₂ : List α) : weight w (l₁ ++ l₂) = weight w l₁ + weight w l₂ := by
  simp [weight]

/-- `s` is the longest suffix of `l` whose weight is at most `cap`. -/
structure IsLongestFit (l s : List α) : Prop where
  suffix : s <:+ l
  fits : weight w s ≤ cap
  longest : ∀ t, t <:+ l → weight w t ≤ cap → t <:+ s

/-- There is only one longest fitting suffix. -/
theorem IsLongestFit.unique {l s s' : List α} (h : IsLongestFit w cap l s)
    (h' : IsLongestFit w cap l s') : s = s' := by
  have h₁ : s <:+ s' := h'.longest s h.suffix h.fits
  have h₂ : s' <:+ s := h.longest s' h'.suffix h'.fits
  exact h₁.eq_of_length (Nat.le_antisymm h₁.length_le h₂.length_le)

/-- Drop entries from the front while the rest does not leave room for a weight of `extra`. -/
def trim (extra : ℕ) : List α → List α
  | [] => []
  | a :: l => if weight w (a :: l) + extra > cap then trim extra l else a :: l

/-- The entries that `trim` drops. -/
def dropped (extra : ℕ) : List α → List α
  | [] => []
  | a :: l => if weight w (a :: l) + extra > cap then a :: dropped extra l else []

/-- The contents after appending `b` to `l`. -/
def pushTrim (l : List α) (b : α) : List α := trim w cap (w b) l ++ [b]

/-- What is dropped and what is kept are the two parts of the contents. -/
theorem dropped_append_trim (extra : ℕ) (l : List α) :
    dropped w cap extra l ++ trim w cap extra l = l := by
  induction l with
  | nil => rfl
  | cons a l ih =>
    rw [dropped, trim]
    split_ifs
    · rw [List.cons_append, ih]
    · rfl

/-- Trimming keeps a suffix. -/
theorem trim_suffix (extra : ℕ) (l : List α) : trim w cap extra l <:+ l :=
  ⟨dropped w cap extra l, dropped_append_trim w cap extra l⟩

/-- What is left after trimming leaves room for `extra`, unless nothing is left. -/
theorem trim_fits (extra : ℕ) (l : List α) :
    trim w cap extra l = [] ∨ weight w (trim w cap extra l) + extra ≤ cap := by
  induction l with
  | nil => exact .inl rfl
  | cons a l ih =>
    rw [trim]
    split_ifs with h
    · exact ih
    · exact .inr (not_lt.mp h)

/-- Trimming keeps every suffix that leaves room for `extra`. -/
theorem suffix_trim (extra : ℕ) {l t : List α} (ht : t <:+ l) (hfit : weight w t + extra ≤ cap) :
    t <:+ trim w cap extra l := by
  induction l with
  | nil => exact ht
  | cons a l ih =>
    rw [trim]
    split_ifs with h
    · -- the whole list does not leave room, so `t` is a proper suffix of it
      rcases List.suffix_cons_iff.mp ht with rfl | ht'
      · omega
      · exact ih ht'
    · exact ht

/-- **Dropping the oldest is keeping the newest that fit.** When the new entry fits at all, the
contents after appending it are the longest fitting suffix. -/
theorem isLongestFit_pushTrim {l : List α} {b : α} (hb : w b ≤ cap) :
    IsLongestFit w cap (l ++ [b]) (pushTrim w cap l b) where
  suffix := by
    obtain ⟨pre, hpre⟩ := trim_suffix w cap (w b) l
    exact ⟨pre, by rw [pushTrim, ← List.append_assoc, hpre]⟩
  fits := by
    rw [pushTrim, weight_append, weight_cons, weight_nil, Nat.add_zero]
    rcases trim_fits w cap (w b) l with h | h
    · simpa [h] using hb
    · exact h
  longest := by
    intro t ht hfit
    rcases List.suffix_concat_iff.mp ht with rfl | ⟨t', rfl, ht'⟩
    · exact List.nil_suffix
    · rw [weight_append, weight_cons, weight_nil, Nat.add_zero] at hfit
      obtain ⟨pre, hpre⟩ := suffix_trim w cap (w b) ht' hfit
      exact ⟨pre, by rw [pushTrim, ← hpre, List.append_assoc]⟩

/-- An entry heavier than the capacity is kept alone. -/
theorem pushTrim_of_lt {l : List α} {b : α} (hb : cap < w b) : pushTrim w cap l b = [b] := by
  rcases trim_fits w cap (w b) l with h | h
  · rw [pushTrim, h, List.nil_append]
  · omega

/-- Some suffix that contains the new entry fits exactly when the new entry fits alone. -/
theorem exists_fit_iff {l : List α} {b : α} :
    (∃ t, t <:+ l ++ [b] ∧ t ≠ [] ∧ weight w t ≤ cap) ↔ w b ≤ cap := by
  constructor
  · rintro ⟨t, ht, hne, hfit⟩
    rcases List.suffix_concat_iff.mp ht with rfl | ⟨t', rfl, -⟩
    · exact absurd rfl hne
    · rw [weight_append, weight_cons, weight_nil] at hfit
      omega
  · intro hb
    exact ⟨[b], ⟨l, rfl⟩, List.cons_ne_nil _ _, by simpa using hb⟩

/-- After an append the weight is within the capacity, unless the new entry is alone. -/
theorem weight_pushTrim_le {l : List α} {b : α} :
    weight w (pushTrim w cap l b) ≤ cap ∨ pushTrim w cap l b = [b] := by
  by_cases hb : w b ≤ cap
  · exact .inl (isLongestFit_pushTrim w cap hb).fits
  · exact .inr (pushTrim_of_lt w cap (not_le.mp hb))

end Huginn.DropOldest
