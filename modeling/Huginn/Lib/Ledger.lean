import Huginn.Lib.Run
import Mathlib.Data.List.Range
import Mathlib.Data.Finset.Card
import Mathlib.Data.Finset.Range
import Mathlib.Data.List.Pairwise

/-!
# A ledger of numbered items behind a drop-oldest queue

The abstract purpose of a bounded retry queue with one consumer. Items are numbered in the order in
which they are appended. Those still queued are the numbers from `front` up to `pushed`; an append
may evict any number of the oldest. The consumer takes the front item, holds it for as long as it
likes, gives it a final verdict, and then releases it, which removes it from the queue only if it is
still the front: it may have been evicted in the meantime.

`Ledger.Inv` relates the held item, the front and the verdicts given so far. From it follow the
three laws of the ledger: every item has exactly one fate (`Ledger.existsUnique_fate`), verdicts are
given in increasing order (`Ledger.Inv.finals_sorted`), and the items that left the queue are
counted once by evictions plus verdicts exactly when no item is in both (`Ledger.accounting_iff`).
-/

namespace Huginn

/-- A final answer about an item. -/
inductive Verdict
  | accepted
  | rejected
  deriving DecidableEq, Repr

/-- What the consumer holds: nothing, an item without a verdict, or an item that has its verdict and
has not been released yet. -/
inductive Hold
  | free
  | taken (i : ℕ)
  | answered (i : ℕ)
  deriving DecidableEq, Repr

/-- The ledger: how many items have been appended, the number of the oldest one still queued, what
the consumer holds, and the evictions and the verdicts so far, in order. -/
structure Ledger where
  pushed : ℕ
  front : ℕ
  hold : Hold
  evicted : List ℕ
  finals : List (ℕ × Verdict)
  deriving DecidableEq, Repr

namespace Ledger

/-- The actions on a ledger: an item is appended and the `k` oldest are evicted; the consumer takes
the front item, gives it its verdict, releases it, or gives it up without a verdict. -/
inductive Action
  | push (k : ℕ)
  | take
  | finish (v : Verdict)
  | release
  | abandon
  deriving DecidableEq, Repr

/-- The empty ledger. -/
def empty : Ledger := ⟨0, 0, .free, [], []⟩

/-- One step of the ledger. -/
def step (l : Ledger) : Action → Option Ledger
  | .push k =>
    if l.front + k ≤ l.pushed then
      some { l with
        pushed := l.pushed + 1
        front := l.front + k
        evicted := l.evicted ++ List.range' l.front k }
    else none
  | .take =>
    if l.hold = .free ∧ l.front < l.pushed then some { l with hold := .taken l.front } else none
  | .finish v =>
    match l.hold with
    | .taken i => some { l with hold := .answered i, finals := l.finals ++ [(i, v)] }
    | .free | .answered _ => none
  | .release =>
    match l.hold with
    | .answered i =>
      some { l with hold := .free, front := if l.front = i then l.front + 1 else l.front }
    | .free | .taken _ => none
  | .abandon =>
    match l.hold with
    | .taken _ => some { l with hold := .free }
    | .free | .answered _ => none

/-- The items that have a verdict, in the order in which they got it. -/
def decided (l : Ledger) : List ℕ := l.finals.map Prod.fst

/-- The verdicts given to item `i`. -/
def verdicts (l : Ledger) (i : ℕ) : List Verdict :=
  (l.finals.filter fun f => f.1 = i).map Prod.snd

/-- What the held item has to do with the front and with the verdicts given so far. An item stays
at or before the front for as long as it is held, and every verdict given earlier is about an older
item. -/
def HoldOk (l : Ledger) : Prop :=
  match l.hold with
  | .free => ∀ j ∈ l.decided, j < l.front
  | .taken i => i ≤ l.front ∧ i < l.pushed ∧ ∀ j ∈ l.decided, j < i
  | .answered i => i ≤ l.front ∧ i < l.pushed ∧ i ∈ l.decided ∧ ∀ j ∈ l.decided, j ≤ i

/-- The invariant of the ledger. -/
structure Inv (l : Ledger) : Prop where
  front_le : l.front ≤ l.pushed
  evicted_sorted : l.evicted.Pairwise (· < ·)
  evicted_lt : ∀ i ∈ l.evicted, i < l.front
  finals_sorted : l.decided.Pairwise (· < ·)
  /-- Whatever left the queue was evicted or has a verdict. -/
  covered : ∀ i < l.front, i ∈ l.evicted ∨ i ∈ l.decided
  hold_ok : l.HoldOk

theorem inv_empty : Inv empty where
  front_le := le_rfl
  evicted_sorted := .nil
  evicted_lt := by simp [empty]
  finals_sorted := .nil
  covered := by simp [empty]
  hold_ok := by simp [HoldOk, empty, decided]

/-! ### Every step keeps the invariant -/

variable {l l' : Ledger}

theorem inv_push {k : ℕ} (hi : l.Inv) (h : l.step (.push k) = some l') : l'.Inv := by
  simp only [step, Option.ite_none_right_eq_some, Option.some.injEq] at h
  obtain ⟨hk, rfl⟩ := h
  have hmem : ∀ j, j ∈ List.range' l.front k ↔ l.front ≤ j ∧ j < l.front + k := by simp
  constructor
  · exact Nat.le_succ_of_le hk
  · refine List.pairwise_append.mpr ⟨hi.evicted_sorted, List.pairwise_lt_range', ?_⟩
    intro i hmi j hmj
    exact (hi.evicted_lt i hmi).trans_le ((hmem j).mp hmj).1
  · intro i hmi
    rcases List.mem_append.mp hmi with h | h
    · exact (hi.evicted_lt i h).trans_le (Nat.le_add_right _ _)
    · exact ((hmem i).mp h).2
  · exact hi.finals_sorted
  · intro i hlt
    by_cases hf : i < l.front
    · exact (hi.covered i hf).imp_left (List.mem_append_left _)
    · exact .inl (List.mem_append_right _ ((hmem i).mpr ⟨not_lt.mp hf, hlt⟩))
  · -- the front only moves up, so an item held before it still is
    have hold := hi.hold_ok
    have hfront : l.front ≤ l.front + k := Nat.le_add_right _ _
    have hpushed : l.pushed < l.pushed + 1 := Nat.lt_succ_self _
    cases hh : l.hold with
    | free =>
      simp only [HoldOk, hh] at hold ⊢
      exact fun j hj => (hold j hj).trans_le hfront
    | taken i =>
      simp only [HoldOk, hh] at hold ⊢
      exact ⟨hold.1.trans hfront, hold.2.1.trans hpushed, hold.2.2⟩
    | answered i =>
      simp only [HoldOk, hh] at hold ⊢
      exact ⟨hold.1.trans hfront, hold.2.1.trans hpushed, hold.2.2⟩

theorem inv_take (hi : l.Inv) (h : l.step .take = some l') : l'.Inv := by
  simp only [step, Option.ite_none_right_eq_some, Option.some.injEq] at h
  obtain ⟨⟨hfree, hlt⟩, rfl⟩ := h
  have hold := hi.hold_ok
  simp only [HoldOk, hfree] at hold
  exact { hi with hold_ok := ⟨le_rfl, hlt, hold⟩ }

theorem inv_finish {v : Verdict} (hi : l.Inv) (h : l.step (.finish v) = some l') : l'.Inv := by
  cases hh : l.hold with
  | free => simp [step, hh] at h
  | answered i => simp [step, hh] at h
  | taken i =>
    simp only [step, hh, Option.some.injEq] at h
    subst h
    have hold := hi.hold_ok
    simp only [HoldOk, hh] at hold
    obtain ⟨hle, hlt, hbefore⟩ := hold
    have hdec : ∀ j, j ∈ (l.finals ++ [(i, v)]).map Prod.fst ↔ j ∈ l.decided ∨ j = i := by
      simp [decided]
    refine { hi with finals_sorted := ?_, covered := ?_, hold_ok := ?_ }
    · simp only [decided, List.map_append, List.map_cons, List.map_nil]
      refine List.pairwise_append.mpr ⟨hi.finals_sorted, List.pairwise_singleton _ _, ?_⟩
      intro j hj m hm
      rw [List.mem_singleton] at hm
      exact hm ▸ hbefore j hj
    · intro j hj
      exact (hi.covered j hj).imp_right fun h => (hdec j).mpr (.inl h)
    · refine ⟨hle, hlt, (hdec i).mpr (.inr rfl), fun j hj => ?_⟩
      rcases (hdec j).mp hj with h | rfl
      · exact (hbefore j h).le
      · exact le_rfl

theorem inv_release (hi : l.Inv) (h : l.step .release = some l') : l'.Inv := by
  cases hh : l.hold with
  | free => simp [step, hh] at h
  | taken i => simp [step, hh] at h
  | answered i =>
    simp only [step, hh, Option.some.injEq] at h
    subst h
    have hold := hi.hold_ok
    simp only [HoldOk, hh] at hold
    obtain ⟨hle, hlt, hmem, hbefore⟩ := hold
    -- the released item is the front, or it was evicted while it was held
    by_cases hf : l.front = i
    · simp only [hf, if_true]
      refine ⟨hlt, hi.evicted_sorted, fun j hj => ?_, hi.finals_sorted, fun j hj => ?_,
        fun j hj => ?_⟩
      · have := hi.evicted_lt j hj
        simp only at this ⊢
        omega
      · rcases Nat.lt_succ_iff_lt_or_eq.mp hj with hj' | rfl
        · exact hi.covered j (hf ▸ hj')
        · exact .inr hmem
      · exact Nat.lt_succ_of_le (hbefore j hj)
    · simp only [hf, if_false]
      refine { hi with hold_ok := fun j hj => ?_ }
      have := hbefore j hj
      simp only
      omega

theorem inv_abandon (hi : l.Inv) (h : l.step .abandon = some l') : l'.Inv := by
  cases hh : l.hold with
  | free => simp [step, hh] at h
  | answered i => simp [step, hh] at h
  | taken i =>
    simp only [step, hh, Option.some.injEq] at h
    subst h
    have hold := hi.hold_ok
    simp only [HoldOk, hh] at hold
    exact { hi with hold_ok := fun j hj => (hold.2.2 j hj).trans_le hold.1 }

/-- **The step lemma.** -/
theorem inv_step {a : Action} (hi : l.Inv) (h : l.step a = some l') : l'.Inv := by
  cases a with
  | push k => exact inv_push hi h
  | take => exact inv_take hi h
  | finish v => exact inv_finish hi h
  | release => exact inv_release hi h
  | abandon => exact inv_abandon hi h

/-- **The run lemma.** -/
theorem inv_run {as : List Action} (h : FreeRun step empty as l) : l.Inv :=
  h.invariant inv_empty fun _ _ _ hi _ hst => inv_step hi hst

/-- The front only moves on. -/
theorem front_le_step {a : Action} (h : l.step a = some l') : l.front ≤ l'.front := by
  cases a with
  | push k =>
    simp only [step, Option.ite_none_right_eq_some, Option.some.injEq] at h
    obtain ⟨-, rfl⟩ := h
    exact Nat.le_add_right l.front k
  | take =>
    simp only [step, Option.ite_none_right_eq_some, Option.some.injEq] at h
    obtain ⟨-, rfl⟩ := h
    exact Nat.le_refl l.front
  | release =>
    simp only [step] at h
    split at h
    · next i hh =>
      obtain rfl := Option.some.inj h
      show l.front ≤ if l.front = i then l.front + 1 else l.front
      split_ifs
      · omega
      · omega
    all_goals cases h
  | finish v | abandon =>
    simp only [step] at h
    split at h
    · obtain rfl := Option.some.inj h
      exact Nat.le_refl l.front
    all_goals cases h

/-! ### The laws of the ledger -/

/-- What became of an item. -/
inductive Fate
  | queued
  | evicted
  | accepted
  | rejected
  deriving DecidableEq, Repr

/-- Item `i` has the given fate: it is still queued; it was evicted and has no verdict; it was
accepted once and got no other verdict; it was rejected once and got no other verdict. -/
def HasFate (l : Ledger) (i : ℕ) : Fate → Prop
  | .queued => l.front ≤ i ∧ i < l.pushed
  | .evicted => i ∈ l.evicted ∧ l.verdicts i = []
  | .accepted => l.verdicts i = [.accepted]
  | .rejected => l.verdicts i = [.rejected]

/-- An item has no verdict exactly when it is not among the decided ones. -/
theorem verdicts_eq_nil_iff {i : ℕ} : l.verdicts i = [] ↔ i ∉ l.decided := by
  simp only [verdicts, decided, List.map_eq_nil_iff, List.filter_eq_nil_iff, decide_eq_true_eq,
    List.mem_map, not_exists, not_and]

/-- An item gets at most one verdict. -/
theorem Inv.verdicts_of_mem (hi : l.Inv) {i : ℕ} (hmem : i ∈ l.decided) :
    l.verdicts i = [.accepted] ∨ l.verdicts i = [.rejected] := by
  have hnodup : (l.finals.map Prod.fst).Nodup := hi.finals_sorted.imp fun h => h.ne
  obtain ⟨v, hv⟩ : ∃ v, (i, v) ∈ l.finals := by simpa [decided] using hmem
  have hone : l.verdicts i = [v] := by
    rw [verdicts]
    generalize l.finals = fs at hnodup hv
    induction fs with
    | nil => simp at hv
    | cons f fs ih =>
      rw [List.map_cons, List.nodup_cons] at hnodup
      rcases List.mem_cons.mp hv with rfl | hv'
      · have hnone : fs.filter (fun f => f.1 = i) = [] := by
          rw [List.filter_eq_nil_iff]
          intro g hg hgi
          exact hnodup.1 (List.mem_map.mpr ⟨g, hg, by simpa using hgi⟩)
        simp [hnone]
      · have hne : ¬ f.1 = i := fun h => hnodup.1 (h ▸ List.mem_map.mpr ⟨(i, v), hv', rfl⟩)
        simpa [hne] using ih hnodup.2 hv'
  cases v with
  | accepted => exact .inl hone
  | rejected => exact .inr hone

/-- An item that has a verdict has left the queue, whenever the consumer is not between a verdict
and the release. -/
theorem Inv.lt_front_of_decided (hi : l.Inv) (hhold : ∀ i, l.hold ≠ .answered i) {i : ℕ}
    (hmem : i ∈ l.decided) : i < l.front := by
  have hold := hi.hold_ok
  cases hh : l.hold with
  | free =>
    simp only [HoldOk, hh] at hold
    exact hold i hmem
  | taken j =>
    simp only [HoldOk, hh] at hold
    exact (hold.2.2 i hmem).trans_le hold.1
  | answered j => exact absurd hh (hhold j)

/-- **Every item has exactly one fate**, whenever the consumer is not between a verdict and the
release. -/
theorem existsUnique_fate (hi : l.Inv) (hhold : ∀ i, l.hold ≠ .answered i) {i : ℕ}
    (hlt : i < l.pushed) : ∃! f, l.HasFate i f := by
  by_cases hmem : i ∈ l.decided
  · -- a verdict is only ever about an item that has left the queue
    have hfront := hi.lt_front_of_decided hhold hmem
    rcases hi.verdicts_of_mem hmem with hv | hv
    · refine ⟨.accepted, hv, fun f hf => ?_⟩
      cases f with
      | accepted => rfl
      | queued => exact absurd hf.1 (not_le.mpr hfront)
      | evicted => simp [HasFate, hv] at hf
      | rejected => simp [HasFate, hv] at hf
    · refine ⟨.rejected, hv, fun f hf => ?_⟩
      cases f with
      | rejected => rfl
      | queued => exact absurd hf.1 (not_le.mpr hfront)
      | evicted => simp [HasFate, hv] at hf
      | accepted => simp [HasFate, hv] at hf
  · have hv := verdicts_eq_nil_iff.mpr hmem
    by_cases hfront : i < l.front
    · have hev := (hi.covered i hfront).resolve_right hmem
      refine ⟨.evicted, ⟨hev, hv⟩, fun f hf => ?_⟩
      cases f with
      | evicted => rfl
      | queued => exact absurd hf.1 (not_le.mpr hfront)
      | accepted => simp [HasFate, hv] at hf
      | rejected => simp [HasFate, hv] at hf
    · refine ⟨.queued, ⟨not_lt.mp hfront, hlt⟩, fun f hf => ?_⟩
      cases f with
      | queued => rfl
      | evicted => exact absurd (hi.evicted_lt i hf.1) hfront
      | accepted => simp [HasFate, hv] at hf
      | rejected => simp [HasFate, hv] at hf

/-- **The accounting law.** Whenever the consumer is not between a verdict and the release, the
items appended are those queued plus the evictions plus the verdicts, exactly when no evicted item
has a verdict. -/
theorem accounting_iff (hi : l.Inv) (hhold : ∀ i, l.hold ≠ .answered i) :
    l.pushed = (l.pushed - l.front) + l.finals.length + l.evicted.length ↔
      ∀ i ∈ l.evicted, i ∉ l.decided := by
  have hunion : l.evicted.toFinset ∪ l.decided.toFinset = Finset.range l.front := by
    ext i
    simp only [Finset.mem_union, List.mem_toFinset, Finset.mem_range]
    refine ⟨?_, hi.covered i⟩
    rintro (h | h)
    · exact hi.evicted_lt i h
    · exact hi.lt_front_of_decided hhold h
  have hev : l.evicted.toFinset.card = l.evicted.length :=
    List.toFinset_card_of_nodup (hi.evicted_sorted.imp fun h => h.ne)
  have hdec : l.decided.toFinset.card = l.finals.length := by
    rw [List.toFinset_card_of_nodup (hi.finals_sorted.imp fun h => h.ne), decided,
      List.length_map]
  -- `pushed` is what is queued and the union, so the sum is right when nothing is counted twice
  have hcard := Finset.card_union_add_card_inter l.evicted.toFinset l.decided.toFinset
  rw [hunion, Finset.card_range, hev, hdec] at hcard
  have hle := hi.front_le
  have hinter : (l.evicted.toFinset ∩ l.decided.toFinset).card = 0 ↔
      ∀ i ∈ l.evicted, i ∉ l.decided := by
    rw [Finset.card_eq_zero, ← Finset.disjoint_iff_inter_eq_empty, Finset.disjoint_left]
    simp
  rw [← hinter]
  omega

end Ledger

end Huginn
