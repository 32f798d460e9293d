import Huginn.Lib.Assoc
import Mathlib.Order.Lattice
import Mathlib.Data.List.Pairwise

/-!
# Ordered maps

`BTreeMap<K, V>`: an association list whose keys are strictly increasing, which is the order in
which the map iterates. The order is a field of the structure, so every key has one value and the
entries are determined by what is looked up.
-/

namespace Huginn

/-- `BTreeMap<K, V>`. -/
structure BTreeMap (K V : Type*) [LT K] where
  /-- The entries, in the order of iteration. -/
  entries : List (K × V)
  /-- The keys are strictly increasing. -/
  sorted : entries.Pairwise fun a b => a.1 < b.1
  deriving DecidableEq

namespace BTreeMap

open Assoc

variable {K V : Type*} [LinearOrder K]

/-- The keys, in the order of iteration. -/
def keys (m : BTreeMap K V) : List K := m.entries.map Prod.fst

/-- `BTreeMap::new()`. -/
def empty : BTreeMap K V := ⟨[], .nil⟩

/-- Change the value at `k`: `f` is given the old value, if there was one. -/
def alterList (k : K) (f : Option V → V) : List (K × V) → List (K × V)
  | [] => [(k, f none)]
  | e :: es =>
    if k < e.1 then (k, f none) :: e :: es
    else if e.1 < k then e :: alterList k f es
    else (k, f (some e.2)) :: es

/-- The keys of the altered list are the old ones and `k`. -/
theorem mem_keys_alterList {k : K} {f : Option V → V} {es : List (K × V)} {j : K} :
    j ∈ (alterList k f es).map Prod.fst ↔ j = k ∨ j ∈ es.map Prod.fst := by
  induction es with
  | nil => simp [alterList]
  | cons e es ih =>
    rw [alterList]
    split_ifs with h1 h2
    · simp
    · rw [List.map_cons, List.mem_cons, ih, List.map_cons, List.mem_cons]
      exact or_left_comm
    · have heq : e.1 = k := le_antisymm (not_lt.mp h1) (not_lt.mp h2)
      simp [heq]

theorem pairwise_alterList {k : K} {f : Option V → V} {es : List (K × V)}
    (h : es.Pairwise fun a b => a.1 < b.1) :
    (alterList k f es).Pairwise fun a b => a.1 < b.1 := by
  induction es with
  | nil => exact List.pairwise_singleton _ _
  | cons e es ih =>
    rw [List.pairwise_cons] at h
    rw [alterList]
    split_ifs with h1 h2
    · refine List.pairwise_cons.mpr ⟨fun a ha => ?_, List.pairwise_cons.mpr h⟩
      rcases List.mem_cons.mp ha with rfl | ha
      · exact h1
      · exact lt_trans h1 (h.1 a ha)
    · refine List.pairwise_cons.mpr ⟨fun a ha => ?_, ih h.2⟩
      have hmem : a.1 ∈ (alterList k f es).map Prod.fst := List.mem_map_of_mem ha
      rcases mem_keys_alterList.mp hmem with hk | hold
      · exact hk ▸ h2
      · obtain ⟨b, hb, hba⟩ := List.mem_map.mp hold
        exact hba ▸ h.1 b hb
    · have heq : e.1 = k := le_antisymm (not_lt.mp h1) (not_lt.mp h2)
      exact List.pairwise_cons.mpr ⟨fun a ha => heq ▸ h.1 a ha, h.2⟩

/-- `insert` and `entry(k).or_default()` followed by an update. -/
def alter (m : BTreeMap K V) (k : K) (f : Option V → V) : BTreeMap K V :=
  ⟨alterList k f m.entries, pairwise_alterList m.sorted⟩

/-- `BTreeMap::insert`. -/
def insert (m : BTreeMap K V) (k : K) (v : V) : BTreeMap K V := m.alter k fun _ => v

/-- No key occurs twice. -/
theorem nodup_keys (m : BTreeMap K V) : m.keys.Nodup :=
  List.pairwise_map.mpr (m.sorted.imp fun h => ne_of_lt h)

@[simp]
theorem mem_keys_alter {m : BTreeMap K V} {k j : K} {f : Option V → V} :
    j ∈ (m.alter k f).keys ↔ j = k ∨ j ∈ m.keys :=
  mem_keys_alterList

@[simp]
theorem mem_keys_insert {m : BTreeMap K V} {k j : K} {v : V} :
    j ∈ (m.insert k v).keys ↔ j = k ∨ j ∈ m.keys :=
  mem_keys_alterList

@[simp]
theorem keys_empty : (empty : BTreeMap K V).keys = [] := rfl

/-! ### Looking up -/

/-- `BTreeMap::get`. -/
def get (m : BTreeMap K V) (k : K) : Option V := m.entries.lookup k

theorem lookup_alterList {k j : K} {f : Option V → V} {es : List (K × V)}
    (h : es.Pairwise fun a b => a.1 < b.1) :
    (alterList k f es).lookup j = if j = k then some (f (es.lookup k)) else es.lookup j := by
  induction es with
  | nil => rw [alterList, lookup_cons_eq, List.lookup_nil, List.lookup_nil]
  | cons e es ih =>
    rw [List.pairwise_cons] at h
    rw [alterList]
    rcases lt_trichotomy k e.1 with hlt | heq | hgt
    · -- the key goes before all others, so it was not there
      have hnone : (e :: es).lookup k = none := by
        refine lookup_eq_none fun hmem => ?_
        rcases List.mem_cons.mp hmem with heq | hmem
        · exact ne_of_lt hlt heq
        · obtain ⟨b, hb, hbk⟩ := List.mem_map.mp hmem
          exact ne_of_lt (lt_trans hlt (h.1 b hb)) hbk.symm
      rw [if_pos hlt, lookup_cons_eq, hnone]
    · rw [if_neg (not_lt.mpr (le_of_eq heq.symm)), if_neg (not_lt.mpr (le_of_eq heq)),
        lookup_cons_eq, lookup_cons_eq e, lookup_cons_eq e, if_pos heq, heq]
      split_ifs <;> rfl
    · have hne : k ≠ e.1 := (ne_of_lt hgt).symm
      rw [if_neg (not_lt_of_gt hgt), if_pos hgt, lookup_cons_eq, ih h.2, lookup_cons_eq e,
        lookup_cons_eq e, if_neg hne]
      by_cases hj : j = e.1
      · rw [if_pos hj, if_pos hj, if_neg (fun hjk => hne (hjk.symm.trans hj))]
      · rw [if_neg hj, if_neg hj]

theorem get_alter (m : BTreeMap K V) (k j : K) (f : Option V → V) :
    (m.alter k f).get j = if j = k then some (f (m.get k)) else m.get j :=
  lookup_alterList m.sorted

/-- The entries are what is looked up. -/
theorem mem_entries_iff {m : BTreeMap K V} {k : K} {v : V} :
    (k, v) ∈ m.entries ↔ m.get k = some v :=
  mem_iff_lookup m.nodup_keys

/-! ### Grouping -/

/-- `entry(k).or_default().push(v)`. -/
def pushAt (m : BTreeMap K (List V)) (k : K) (v : V) : BTreeMap K (List V) :=
  m.alter k fun old => old.getD [] ++ [v]

/-- Pushing one item after another groups them by key, in order. -/
theorem get_foldl_pushAt (items : List (K × V)) (m : BTreeMap K (List V)) (k : K) :
    ((items.foldl (fun m e => m.pushAt e.1 e.2) m).get k).getD [] =
      (m.get k).getD [] ++ (items.filter fun e => e.1 = k).map Prod.snd := by
  induction items generalizing m with
  | nil => simp
  | cons e items ih =>
    have hpush : ((m.pushAt e.1 e.2).get k).getD [] =
        (m.get k).getD [] ++ if e.1 = k then [e.2] else [] := by
      rw [pushAt, get_alter]
      by_cases hk : k = e.1
      · simp [hk]
      · simp [hk, Ne.symm hk]
    rw [List.foldl_cons, ih, hpush, List.append_assoc, List.filter_cons]
    by_cases hk : e.1 = k <;> simp [hk]

theorem mem_keys_foldl_pushAt (items : List (K × V)) (m : BTreeMap K (List V)) (k : K) :
    k ∈ (items.foldl (fun m e => m.pushAt e.1 e.2) m).keys ↔
      k ∈ m.keys ∨ k ∈ items.map Prod.fst := by
  induction items generalizing m with
  | nil => simp
  | cons e items ih =>
    have hpush : k ∈ (m.pushAt e.1 e.2).keys ↔ k = e.1 ∨ k ∈ m.keys := mem_keys_alter
    rw [List.foldl_cons, ih, hpush, List.map_cons, List.mem_cons]
    tauto

/-- The map that groups the items by key. -/
def groupBy (items : List (K × V)) : BTreeMap K (List V) :=
  items.foldl (fun m e => m.pushAt e.1 e.2) empty

theorem mem_keys_groupBy {items : List (K × V)} {k : K} :
    k ∈ (groupBy items).keys ↔ k ∈ items.map Prod.fst := by
  rw [groupBy, mem_keys_foldl_pushAt, keys_empty]
  exact or_iff_right List.not_mem_nil

/-- A group is made of the items with its key, in order. -/
theorem snd_of_mem_groupBy {items : List (K × V)} {e : K × List V}
    (he : e ∈ (groupBy items).entries) :
    e.2 = (items.filter fun x => x.1 = e.1).map Prod.snd := by
  have hgroup := get_foldl_pushAt items empty e.1
  have hget : (groupBy items).get e.1 = some e.2 := mem_entries_iff.mp he
  rw [← groupBy, hget] at hgroup
  simpa [get, empty] using hgroup

/-- No group is empty. -/
theorem snd_ne_nil_of_mem_groupBy {items : List (K × V)} {e : K × List V}
    (he : e ∈ (groupBy items).entries) : e.2 ≠ [] := by
  have hkey : e.1 ∈ (groupBy items).keys := List.mem_map_of_mem he
  obtain ⟨x, hx, hxe⟩ := List.mem_map.mp (mem_keys_groupBy.mp hkey)
  rw [snd_of_mem_groupBy he, Ne, List.map_eq_nil_iff]
  exact List.ne_nil_of_mem (List.mem_filter.mpr ⟨hx, by simpa using hxe⟩)

/-- What holds between any two items with one key holds within the groups, and conversely. -/
theorem pairwise_groupBy_iff {R : V → V → Prop} {items : List (K × V)} :
    (∀ e ∈ (groupBy items).entries, e.2.Pairwise R) ↔
      items.Pairwise fun a b => a.1 = b.1 → R a.2 b.2 := by
  have hgroup : ∀ k, ((items.filter fun x => x.1 = k).map Prod.snd).Pairwise R ↔
      ∀ {a b}, [a, b].Sublist items → a.1 = k → b.1 = k → R a.2 b.2 := by
    intro k
    rw [List.pairwise_map, List.pairwise_filter, List.pairwise_iff_forall_sublist]
    simp only [decide_eq_true_eq]
  rw [List.pairwise_iff_forall_sublist]
  constructor
  · intro h a b hsub heq
    have ha : a.1 ∈ (groupBy items).keys :=
      mem_keys_groupBy.mpr (List.mem_map_of_mem (hsub.subset List.mem_cons_self))
    obtain ⟨e, he, hea⟩ := List.mem_map.mp ha
    have hpair := h e he
    rw [snd_of_mem_groupBy he, hgroup] at hpair
    exact hpair hsub hea.symm (heq ▸ hea.symm)
  · intro h e he
    rw [snd_of_mem_groupBy he, hgroup]
    intro a b hsub ha hb
    exact h hsub (ha.trans hb.symm)

end BTreeMap

end Huginn
