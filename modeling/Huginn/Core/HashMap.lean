import Huginn.Lib.Assoc
import Huginn.Lib.LastWrite
import Mathlib.Data.List.Induction

/-!
# Hash maps

`HashMap<K, V>`: an association list without a repeated key. The list is in the order in which the
map happens to iterate, about which nothing is known: a statement about a map that was filled is
about every map with the same entries in some order.

Inserting values one after another leaves the last one of each key (`get_foldl_insert`).
-/

namespace Huginn

/-- `HashMap<K, V>`. -/
structure HashMap (K V : Type*) where
  /-- The entries, in the order of iteration. -/
  entries : List (K × V)
  nodup : (entries.map Prod.fst).Nodup

namespace HashMap

variable {K V : Type*}

/-- `HashMap::new()`. -/
def empty : HashMap K V := ⟨[], .nil⟩

/-- `HashMap::values`. -/
def values (m : HashMap K V) : List V := m.entries.map Prod.snd

/-- `HashMap::get`. -/
def get [DecidableEq K] (m : HashMap K V) (k : K) : Option V := m.entries.lookup k

/-- `HashMap::insert`. -/
def insert [DecidableEq K] (m : HashMap K V) (k : K) (v : V) : HashMap K V :=
  ⟨Assoc.insert k v m.entries, Assoc.nodup_insert m.nodup⟩

/-- Values that know their keys are distinct by them. -/
theorem nodup_map_values {m : HashMap K V} {f : V → K} (h : ∀ e ∈ m.entries, e.1 = f e.2) :
    (m.values.map f).Nodup := by
  have heq : m.values.map f = m.entries.map Prod.fst := by
    rw [values, List.map_map]
    exact List.map_congr_left fun e he => (h e he).symm
  rw [heq]
  exact m.nodup

section Get

variable [DecidableEq K]

/-- The entries are what is looked up. -/
theorem mem_entries_iff {m : HashMap K V} {k : K} {v : V} :
    (k, v) ∈ m.entries ↔ m.get k = some v :=
  Assoc.mem_iff_lookup m.nodup

@[simp]
theorem get_empty (k : K) : (empty : HashMap K V).get k = none := rfl

theorem get_insert (m : HashMap K V) (k : K) (v : V) :
    (m.insert k v).get = Function.update m.get k (some v) := by
  funext j
  rw [Function.update_apply]
  exact Assoc.lookup_insert k j v m.entries

theorem perm_of_get {m m' : HashMap K V} (h : ∀ k, m.get k = m'.get k) :
    m.entries.Perm m'.entries :=
  Assoc.perm_of_lookup m.nodup m'.nodup h

theorem get_of_perm {m m' : HashMap K V} (h : m.entries.Perm m'.entries) (k : K) :
    m.get k = m'.get k :=
  Assoc.lookup_of_perm m.nodup h k

/-- The values with a key are what is looked up under it, where the values know their keys. -/
theorem filter_values {m : HashMap K V} {key : V → K} (h : ∀ e ∈ m.entries, e.1 = key e.2) (k : K) :
    m.values.filter (fun v => key v = k) = (m.get k).toList :=
  Assoc.filter_values m.nodup h k

theorem lastTo_values {m : HashMap K V} {key : V → K} (h : ∀ e ∈ m.entries, e.1 = key e.2) :
    lastTo key m.values = m.get := by
  funext k
  rw [lastTo, filter_values h]
  cases m.get k with
  | none => rfl
  | some v => rfl

/-- **The last value of each key is kept.** -/
theorem get_foldl_insert (key : V → K) (log : List V) (m : HashMap K V) :
    (log.foldl (fun m v => m.insert (key v) v) m).get = overlay key m.get log := by
  induction log using List.reverseRecOn with
  | nil => rw [List.foldl_nil, overlay_nil]
  | append_singleton log v ih =>
    rw [List.foldl_concat, get_insert, ih, overlay_concat]

/-- A map that has the last values of a log is keyed as the log is. -/
theorem key_eq_of_get {m : HashMap K V} {key : V → K} {log : List V} (h : m.get = lastTo key log) :
    ∀ e ∈ m.entries, e.1 = key e.2 := by
  rintro ⟨k, v⟩ he
  rw [mem_entries_iff, h] at he
  exact (key_of_lastTo he).2.symm

end Get

end HashMap

end Huginn
