import Huginn.Lib.Run
import Mathlib.Order.Defs.PartialOrder

/-!
# Reading a system value by value

A scanner reads some values of a system, one after the other, while the system goes on. What it ends
up with need not have been true at any one time. But each of its values was, at some moment between
the beginning and the end of the scan, and one scan ends before the next begins
(`Scanner.scanned`). So what never decreases in the system does not decrease from one scan to the
next, either (`Scanner.pairwise_of_mono`).
-/

namespace Huginn

/-- A scan that is over: the state in which it began, what was read, and the state in which it
ended. -/
structure Scan (σ ι ν : Type*) where
  begun : σ
  values : List (ι × ν)
  ended : σ

/-- A scan that is under way, with what is still to be read. -/
structure Scanning (σ ι ν : Type*) where
  begun : σ
  values : List (ι × ν)
  todo : List ι

/-- A system and its scanner. -/
structure Scanner (σ ι ν : Type*) where
  state : σ
  current : Option (Scanning σ ι ν)
  scans : List (Scan σ ι ν)

inductive ScanAction (α : Type*)
  | act (a : α)
  | start
  | read
  | finish

namespace Reachable

variable {σ α : Type*} {stepS : σ → α → Option σ} {s t u : σ} {a : α}

theorem refl : Reachable stepS s s := ⟨[], .nil⟩

theorem trans (h : Reachable stepS s t) (h' : Reachable stepS t u) : Reachable stepS s u := by
  obtain ⟨as, has⟩ := h
  obtain ⟨bs, hbs⟩ := h'
  exact ⟨as ++ bs, Run.trans has hbs⟩

theorem step (h : Reachable stepS s t) (hst : stepS t a = some u) : Reachable stepS s u :=
  h.trans ⟨[a], .single trivial hst⟩

end Reachable

namespace Scanner

variable {σ α ι ν : Type*}

/-- Nothing has been read. -/
def new (s : σ) : Scanner σ ι ν := ⟨s, none, []⟩

/-- The values are read in an order, each in the state that the system is in. -/
def step (order : List ι) (value : σ → ι → ν) (stepS : σ → α → Option σ) (s : Scanner σ ι ν) :
    ScanAction α → Option (Scanner σ ι ν)
  | .act a => (stepS s.state a).map fun t => { s with state := t }
  | .start =>
    match s.current with
    | none => some { s with current := some ⟨s.state, [], order⟩ }
    | some _ => none
  | .read =>
    match s.current with
    | some ⟨begun, values, i :: todo⟩ =>
      some { s with current := some ⟨begun, values ++ [(i, value s.state i)], todo⟩ }
    | some ⟨_, _, []⟩ | none => none
  | .finish =>
    match s.current with
    | some ⟨begun, values, []⟩ =>
      some { s with current := none, scans := s.scans ++ [⟨begun, values, s.state⟩] }
    | some ⟨_, _, _ :: _⟩ | none => none

/-! ### Between the beginning and the end -/

variable {order : List ι} {value : σ → ι → ν} {stepS : σ → α → Option σ} {s t : Scanner σ ι ν}
  {s₀ : σ} {a : ScanAction α} {as : List (ScanAction α)}

/-- A value that was read was there at some time between two states. -/
def Between (value : σ → ι → ν) (stepS : σ → α → Option σ) (s t : σ) (v : ι × ν) : Prop :=
  ∃ m, Reachable stepS s m ∧ Reachable stepS m t ∧ v.2 = value m v.1

theorem Between.step {s t u : σ} {v : ι × ν} {a : α} (h : Between value stepS s t v)
    (hst : stepS t a = some u) : Between value stepS s u v := by
  obtain ⟨m, hm, hmend, hv⟩ := h
  exact ⟨m, hm, hmend.step hst, hv⟩

/-- What the scans are about, as far as they have come. -/
structure Inv (order : List ι) (value : σ → ι → ν) (stepS : σ → α → Option σ) (s₀ : σ)
    (s : Scanner σ ι ν) : Prop where
  reachable : Reachable stepS s₀ s.state
  current : ∀ c, s.current = some c → Reachable stepS s₀ c.begun ∧
    Reachable stepS c.begun s.state ∧ c.values.map Prod.fst ++ c.todo = order ∧
    (∀ v ∈ c.values, Between value stepS c.begun s.state v) ∧
    ∀ scan ∈ s.scans, Reachable stepS scan.ended c.begun
  scans : ∀ scan ∈ s.scans, Reachable stepS s₀ scan.begun ∧
    Reachable stepS scan.ended s.state ∧ scan.values.map Prod.fst = order ∧
    ∀ v ∈ scan.values, Between value stepS scan.begun scan.ended v
  ordered : s.scans.Pairwise fun a b => Reachable stepS a.ended b.begun

theorem inv_new : Inv order value stepS s₀ (new s₀) where
  reachable := .refl
  current := fun _ h => (by cases h)
  scans := fun _ h => absurd h List.not_mem_nil
  ordered := .nil

theorem inv_step (hi : Inv order value stepS s₀ s) (h : step order value stepS s a = some t) :
    Inv order value stepS s₀ t := by
  cases a with
  | act b =>
    obtain ⟨u, hu, rfl⟩ := Option.map_eq_some_iff.mp h
    refine ⟨hi.reachable.step hu, fun c hc => ?_, fun scan hmem => ?_, hi.ordered⟩
    · obtain ⟨hbegun, hreach, horder, hvalues, hscans⟩ := hi.current c hc
      exact ⟨hbegun, hreach.step hu, horder, fun v hv => (hvalues v hv).step hu, hscans⟩
    · obtain ⟨hbegun, hreach, horder, hvalues⟩ := hi.scans scan hmem
      exact ⟨hbegun, hreach.step hu, horder, hvalues⟩
  | start =>
    simp only [step] at h
    split at h
    · obtain rfl := Option.some.inj h
      refine ⟨hi.reachable, fun c hc => ?_, hi.scans, hi.ordered⟩
      obtain rfl := Option.some.inj hc
      exact ⟨hi.reachable, .refl, rfl, fun v hv => absurd hv List.not_mem_nil,
        fun scan hmem => (hi.scans scan hmem).2.1⟩
    · cases h
  | read =>
    simp only [step] at h
    split at h
    · next begun values i todo hcurrent =>
      obtain rfl := Option.some.inj h
      obtain ⟨hbegun, hreach, horder, hvalues, hscans⟩ := hi.current _ hcurrent
      refine ⟨hi.reachable, fun c hc => ?_, hi.scans, hi.ordered⟩
      obtain rfl := Option.some.inj hc
      refine ⟨hbegun, hreach, ?_, fun v hv => ?_, hscans⟩
      · rw [← horder, List.map_append, List.append_assoc]
        rfl
      · rcases List.mem_append.mp hv with hold | hnew
        · exact hvalues v hold
        · rw [List.mem_singleton.mp hnew]
          exact ⟨s.state, hreach, .refl, rfl⟩
    all_goals cases h
  | finish =>
    simp only [step] at h
    split at h
    · next begun values hcurrent =>
      obtain rfl := Option.some.inj h
      obtain ⟨hbegun, hreach, horder, hvalues, hscans⟩ := hi.current _ hcurrent
      refine ⟨hi.reachable, fun c hc => (by cases hc), fun scan hmem => ?_, ?_⟩
      · rcases List.mem_append.mp hmem with hold | hnew
        · exact hi.scans scan hold
        · rw [List.mem_singleton.mp hnew]
          exact ⟨hbegun, .refl, (List.append_nil _).symm.trans horder, hvalues⟩
      · refine List.pairwise_append.mpr ⟨hi.ordered, List.pairwise_singleton _ _, ?_⟩
        intro scan hmem last hlast
        rw [List.mem_singleton.mp hlast]
        exact hscans scan hmem
    all_goals cases h

/-- **What a scan says.** It has every value in the order in which they are read, and each was there
at some time between its beginning and its end. One scan ends before the next begins. -/
theorem scanned (h : FreeRun (step order value stepS) (new s₀) as s) :
    (∀ scan ∈ s.scans, Reachable stepS s₀ scan.begun ∧ scan.values.map Prod.fst = order ∧
      ∀ v ∈ scan.values, Between value stepS scan.begun scan.ended v) ∧
    s.scans.Pairwise fun a b => Reachable stepS a.ended b.begun := by
  have hi : Inv order value stepS s₀ s :=
    h.invariant inv_new fun _ _ _ hi _ hst => inv_step hi hst
  refine ⟨fun scan hmem => ?_, hi.ordered⟩
  obtain ⟨hbegun, -, horder, hvalues⟩ := hi.scans scan hmem
  exact ⟨hbegun, horder, hvalues⟩

/-- **What never decreases is never seen to.** -/
theorem pairwise_of_mono [Preorder ν] {grows : ι → Prop}
    (hmono : ∀ i, grows i → ∀ s a t, Reachable stepS s₀ s → stepS s a = some t →
      value s i ≤ value t i)
    (h : FreeRun (step order value stepS) (new s₀) as s) :
    s.scans.Pairwise fun a b => ∀ i, grows i → ∀ v w, (i, v) ∈ a.values → (i, w) ∈ b.values →
      v ≤ w := by
  obtain ⟨hscans, hordered⟩ := scanned h
  have hle : ∀ i, grows i → ∀ s t, Reachable stepS s₀ s → Reachable stepS s t →
      value s i ≤ value t i := by
    rintro i hi s t ⟨bs, hbs⟩ ⟨cs, hcs⟩
    have hboth : Reachable stepS s₀ t ∧ value s i ≤ value t i :=
      hcs.invariant (I := fun t => Reachable stepS s₀ t ∧ value s i ≤ value t i)
        ⟨⟨bs, hbs⟩, le_rfl⟩
        fun t a u ht _ hst => ⟨ht.1.step hst, le_trans ht.2 (hmono i hi _ _ _ ht.1 hst)⟩
    exact hboth.2
  refine hordered.imp_of_mem fun {a b} ha hb hab i hi v w hv hw => ?_
  obtain ⟨hbegun, -, hvalues⟩ := hscans a ha
  obtain ⟨m, hm, hmend, hv⟩ := hvalues _ hv
  obtain ⟨n, hn, -, hw⟩ := (hscans b hb).2.2 _ hw
  have hreach : Reachable stepS m n := (hmend.trans hab).trans hn
  calc v = value m i := hv
    _ ≤ value n i := hle i hi m n (hbegun.trans hm) hreach
    _ = w := hw.symm

end Scanner

end Huginn
