import Huginn.Lib.LastWrite
import Mathlib.Data.List.Induction
import Mathlib.Data.List.Pairwise

/-!
# Deliveries that are repeated

A log of writes is cut into parts, and a sender delivers one part after the other, some of them more
than once and some not at all. As long as it does not go back to an earlier part, the reader finds
what he would if each of the parts delivered had been delivered once (`lastTo_redelivered`). If no
two writes to one key differ, then the order and the number of the deliveries do not matter at all
(`lastTo_eq_some_iff_of_agree`).
-/

namespace Huginn

variable {α β κ : Type*} [DecidableEq κ] {key : α → κ}

/-- Nothing is found that was not written. -/
theorem mem_of_lastTo {log : List α} {k : κ} {a : α} (h : lastTo key log k = some a) : a ∈ log :=
  (key_of_lastTo h).1

/-- No two writes to one key differ. -/
def Agree (key : α → κ) (log : List α) : Prop :=
  ∀ a ∈ log, ∀ b ∈ log, key a = key b → a = b

/-- **Where writes agree, only the set of them matters.** -/
theorem lastTo_eq_some_iff_of_agree {log : List α} (h : Agree key log) {a : α} :
    lastTo key log (key a) = some a ↔ a ∈ log := by
  constructor
  · exact mem_of_lastTo
  · intro hmem
    cases hlast : lastTo key log (key a) with
    | none => exact absurd rfl (lastTo_eq_none_iff.mp hlast a hmem)
    | some b =>
      obtain ⟨hb, hkey⟩ := key_of_lastTo hlast
      rw [h b hb a hmem hkey]

variable [DecidableEq β] {number : β → ℕ} {writes : β → List α}

/-- The parts up to `b`, the last of which is `b`. -/
theorem filter_mem_split {pre post ds : List β} {b : β}
    (hpost : ∀ c ∈ post, number b < number c) (hds : ∀ d ∈ ds, number d ≤ number b) :
    (pre ++ b :: post).filter (· ∈ ds) = pre.filter (· ∈ ds) ++ if b ∈ ds then [b] else [] := by
  have hnone : post.filter (· ∈ ds) = [] := by
    rw [List.filter_eq_nil_iff]
    intro c hc hmem
    have hle := hds c (of_decide_eq_true hmem)
    have hlt := hpost c hc
    omega
  rw [List.filter_append, List.filter_cons, hnone]
  simp only [decide_eq_true_eq]

/-- **Repeating a delivery changes nothing.** The parts are numbered, and they are delivered in an
order that does not go back. -/
theorem lastTo_redelivered {parts ds : List β} (hparts : parts.Pairwise (number · < number ·))
    (hds : ds.Pairwise (number · ≤ number ·)) (hmem : ∀ d ∈ ds, d ∈ parts) :
    lastTo key (ds.flatMap writes) = lastTo key ((parts.filter (· ∈ ds)).flatMap writes) := by
  induction ds using List.reverseRecOn with
  | nil => simp
  | append_singleton ds b ih =>
    rw [List.pairwise_append] at hds
    obtain ⟨hds, -, hlast⟩ := hds
    have hle : ∀ d ∈ ds, number d ≤ number b := fun d hd => hlast d hd b List.mem_cons_self
    have hle' : ∀ d ∈ ds ++ [b], number d ≤ number b := by
      intro d hd
      rcases List.mem_append.mp hd with hold | hnew
      · exact hle d hold
      · exact Nat.le_of_eq (congrArg number (List.mem_singleton.mp hnew))
    obtain ⟨pre, post, rfl⟩ := List.append_of_mem (hmem b (by simp))
    rw [List.pairwise_append, List.pairwise_cons] at hparts
    obtain ⟨-, ⟨hpost, -⟩, hpre⟩ := hparts
    have hold := ih hds fun d hd => hmem d (List.mem_append_left _ hd)
    rw [filter_mem_split hpost hle] at hold
    -- nothing before `b` is `b`
    have hbefore : pre.filter (· ∈ ds ++ [b]) = pre.filter (· ∈ ds) := by
      apply List.filter_congr
      intro c hc
      have hlt := hpre c hc b List.mem_cons_self
      have hne : c ≠ b := by
        rintro rfl
        omega
      simp [hne]
    rw [filter_mem_split hpost hle', hbefore, if_pos (by simp)]
    funext k
    simp only [List.flatMap_append, List.flatMap_singleton, lastTo_append, hold]
    by_cases hb : b ∈ ds
    · rw [if_pos hb, List.flatMap_singleton]
      cases lastTo key (writes b) k
      all_goals rfl
    · rw [if_neg hb, List.flatMap_nil]
      rfl

end Huginn
