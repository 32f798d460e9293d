import Mathlib.Data.List.Nodup
import Mathlib.Tactic.Common

/-!
# Association lists

What `List.lookup` finds in a list of keys and values, and what replacing the value of a key, or
adding one at the end, changes of it (`lookup_insert`).
-/

namespace Huginn.Assoc

variable {K V : Type*} [DecidableEq K]

theorem lookup_cons_eq (e : K × V) (es : List (K × V)) (j : K) :
    (e :: es).lookup j = if j = e.1 then some e.2 else es.lookup j := by
  rw [List.lookup_cons]
  by_cases h : j = e.1
  · simp [h]
  · rw [if_neg h, beq_false_of_ne h]

theorem lookup_eq_none {es : List (K × V)} {k : K} (h : k ∉ es.map Prod.fst) :
    es.lookup k = none := by
  rw [List.lookup_eq_none_iff]
  intro e he
  simpa using fun heq : k = e.1 => h (heq ▸ List.mem_map_of_mem he)

/-- Where no key occurs twice, the entries are what is looked up. -/
theorem mem_iff_lookup {es : List (K × V)} (h : (es.map Prod.fst).Nodup) {k : K} {v : V} :
    (k, v) ∈ es ↔ es.lookup k = some v := by
  induction es with
  | nil => simp
  | cons e es ih =>
    rw [List.map_cons, List.nodup_cons] at h
    rw [List.mem_cons, lookup_cons_eq, ih h.2, Prod.ext_iff]
    by_cases hk : k = e.1
    · have hnone := lookup_eq_none h.1
      rw [if_pos hk, hk, hnone, Option.some.injEq]
      simp [eq_comm]
    · simp [hk]

/-- Where the values know their keys, those with a key are what is looked up. -/
theorem filter_values {es : List (K × V)} (h : (es.map Prod.fst).Nodup) {key : V → K}
    (hkey : ∀ e ∈ es, e.1 = key e.2) (k : K) :
    (es.map Prod.snd).filter (fun v => key v = k) = (es.lookup k).toList := by
  induction es with
  | nil => rfl
  | cons e es ih =>
    rw [List.map_cons, List.nodup_cons] at h
    have htail := ih h.2 fun x hx => hkey x (List.mem_cons_of_mem e hx)
    have he := hkey e List.mem_cons_self
    rw [List.map_cons, lookup_cons_eq]
    by_cases hk : k = e.1
    · rw [List.filter_cons_of_pos (by simpa [← he] using hk.symm), htail, if_pos hk, hk,
        lookup_eq_none h.1]
      rfl
    · rw [List.filter_cons_of_neg (by simpa [← he] using Ne.symm hk), htail, if_neg hk]

/-- Replace the value at `k`, or add one at the end. -/
def insert (k : K) (v : V) : List (K × V) → List (K × V)
  | [] => [(k, v)]
  | e :: es => if e.1 = k then (k, v) :: es else e :: insert k v es

theorem mem_keys_insert {k j : K} {v : V} {es : List (K × V)} :
    j ∈ (insert k v es).map Prod.fst ↔ j = k ∨ j ∈ es.map Prod.fst := by
  induction es with
  | nil => simp [insert]
  | cons e es ih =>
    rw [insert]
    split_ifs with h
    · simp [h]
    · rw [List.map_cons, List.mem_cons, ih, List.map_cons, List.mem_cons]
      exact or_left_comm

theorem nodup_insert {k : K} {v : V} {es : List (K × V)} (h : (es.map Prod.fst).Nodup) :
    ((insert k v es).map Prod.fst).Nodup := by
  induction es with
  | nil => exact List.nodup_singleton _
  | cons e es ih =>
    rw [List.map_cons, List.nodup_cons] at h
    rw [insert]
    split_ifs with hk
    · exact List.nodup_cons.mpr ⟨hk ▸ h.1, h.2⟩
    · refine List.nodup_cons.mpr ⟨fun hmem => ?_, ih h.2⟩
      exact (mem_keys_insert.mp hmem).elim hk h.1

theorem lookup_insert (k j : K) (v : V) (es : List (K × V)) :
    (insert k v es).lookup j = if j = k then some v else es.lookup j := by
  induction es with
  | nil => rw [insert, lookup_cons_eq]
  | cons e es ih =>
    rw [insert]
    split_ifs with h hj hj
    · rw [lookup_cons_eq, if_pos hj]
    · rw [lookup_cons_eq, lookup_cons_eq, if_neg hj, if_neg (h ▸ hj)]
    · rw [lookup_cons_eq, if_neg (fun heq => h (heq.symm.trans hj)), ih, if_pos hj]
    · rw [lookup_cons_eq, lookup_cons_eq, ih, if_neg hj]

/-- Where no key occurs twice, lists with the same values at the same keys are permutations of each
other. -/
theorem perm_of_lookup {es fs : List (K × V)} (hes : (es.map Prod.fst).Nodup)
    (hfs : (fs.map Prod.fst).Nodup) (h : ∀ k, es.lookup k = fs.lookup k) : es.Perm fs := by
  refine (List.perm_ext_iff_of_nodup hes.of_map hfs.of_map).mpr fun e => ?_
  rw [mem_iff_lookup hes, mem_iff_lookup hfs, h]

theorem lookup_of_perm {es fs : List (K × V)} (hes : (es.map Prod.fst).Nodup) (h : es.Perm fs)
    (k : K) : es.lookup k = fs.lookup k := by
  have hfs : (fs.map Prod.fst).Nodup := (h.map _).nodup_iff.mp hes
  refine Option.ext fun v => ?_
  rw [← mem_iff_lookup hes, ← mem_iff_lookup hfs]
  exact h.mem_iff

end Huginn.Assoc
