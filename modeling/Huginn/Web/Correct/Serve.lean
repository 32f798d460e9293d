import Huginn.Web.Serve

/-!
# The connection cap holds, and no permit is lost

The owners of the permits that are out are the tasks of the live connections, and the loop where it
holds one (`Serve.Inv.owners`). So the permits that are available and those that are out make up the
cap in every state of every run (`Serve.permits_conserved`).
-/

namespace Huginn.Web.Serve

variable {s t : Serve} {a : ServeAction} {as : List ServeAction} {maxConnections : ℕ}

/-! ### What a step does -/

/-- The owners of permits: the loop, where it holds one, and the tasks. -/
def owners (s : Serve) : List PermitOwner :=
  (if s.loopHolds then [.loop] else []) ++ s.connections.map fun c => .task c.number

/-- What a step can do, by where it was taken. -/
inductive StepTo (s : Serve) : ServeAction → Serve → Prop
  | acquired (permits : Semaphore PermitOwner) (hl : s.loop = .acquire)
      (hp : s.permits.acquire .loop = some permits) :
      StepTo s .acquired { s with permits := permits, loop := .accept }
  | accepted (hl : s.loop = .accept) : StepTo s .accepted { s with loop := .spawn }
  | acceptFailed (hl : s.loop = .accept) : StepTo s .acceptFailed { s with loop := .failed }
  | spawn (hl : s.loop = .spawn) : StepTo s .spawn
      { permits := s.permits.transfer .loop (.task s.spawned)
        loop := .acquire
        spawned := s.spawned + 1
        connections := s.connections ++ [⟨s.spawned, .serving⟩] }
  | continued (hl : s.loop = .failed) :
      StepTo s .continued { s with permits := s.permits.release .loop, loop := .acquire }
  | served (c : Connection) (ok : Bool) (hc : c ∈ s.connections) : StepTo s (.served c ok)
      { s with connections := s.connections.erase c ++ [{ c with pc := .served }] }
  | ended (c : Connection) (hc : c ∈ s.connections) : StepTo s (.ended c) (s.drop c)
  | unwound (c : Connection) (hc : c ∈ s.connections) : StepTo s (.unwound c) (s.drop c)

/-- **The step lemma.** -/
theorem step_to (h : s.step a = some t) : StepTo s a t := by
  cases a with
  | acquired =>
    simp only [step] at h
    split at h
    · next hl =>
      obtain ⟨permits, hp, rfl⟩ := Option.map_eq_some_iff.mp h
      exact .acquired permits hl hp
    all_goals cases h
  | accepted =>
    simp only [step] at h
    split at h
    · next hl => exact Option.some.inj h ▸ .accepted hl
    all_goals cases h
  | acceptFailed =>
    simp only [step] at h
    split at h
    · next hl => exact Option.some.inj h ▸ .acceptFailed hl
    all_goals cases h
  | spawn =>
    simp only [step] at h
    split at h
    · next hl => exact Option.some.inj h ▸ .spawn hl
    all_goals cases h
  | continued =>
    simp only [step] at h
    split at h
    · next hl => exact Option.some.inj h ▸ .continued hl
    all_goals cases h
  | served c ok =>
    rw [step, Option.ite_none_right_eq_some] at h
    exact Option.some.inj h.2 ▸ .served c ok h.1.1
  | ended c =>
    rw [step, Option.ite_none_right_eq_some] at h
    exact Option.some.inj h.2 ▸ .ended c h.1.1
  | unwound c =>
    rw [step, Option.ite_none_right_eq_some] at h
    exact Option.some.inj h.2 ▸ .unwound c h.1

/-! ### The invariant -/

/-- The permits that are out have the owners that they should, and no permit appears or
disappears. -/
structure Inv (maxConnections : ℕ) (s : Serve) : Prop where
  owners : s.permits.held.Perm s.owners
  permits : s.permits.permits = maxConnections

theorem inv_new : (new maxConnections).Inv maxConnections where
  owners := .nil
  permits := Semaphore.permits_new maxConnections

theorem owners_of_holds (h : s.loopHolds = true) :
    s.owners = .loop :: s.connections.map fun c => .task c.number := by
  rw [Serve.owners, if_pos h]
  rfl

theorem owners_of_not_holds (h : s.loopHolds = false) :
    s.owners = s.connections.map fun c => .task c.number := by
  rw [Serve.owners, h]
  rfl

/-- A live connection is one owner among the others. -/
theorem owners_perm {c : Connection} (hc : c ∈ s.connections) :
    s.owners.Perm (.task c.number :: (s.drop c).owners) := by
  have herase := (List.perm_cons_erase hc).map fun c => PermitOwner.task c.number
  exact (herase.append_left _).trans List.perm_middle

/-- A task that ends gives its permit back. -/
theorem Inv.drop (hi : s.Inv maxConnections) {c : Connection} (hc : c ∈ s.connections) :
    (s.drop c).Inv maxConnections := by
  have hperm := hi.owners.trans (owners_perm hc)
  have hmem : PermitOwner.task c.number ∈ s.permits.held := hperm.symm.subset List.mem_cons_self
  exact ⟨Semaphore.held_release hperm, (Semaphore.permits_release hmem).trans hi.permits⟩

/-- While the loop holds a permit, it is one owner among the tasks. -/
theorem Inv.held_of_holds (hi : s.Inv maxConnections) (h : s.loopHolds = true) :
    s.permits.held.Perm (.loop :: s.connections.map fun c => .task c.number) := by
  have hperm := hi.owners
  rwa [owners_of_holds h] at hperm

theorem Inv.held_of_not_holds (hi : s.Inv maxConnections) (h : s.loopHolds = false) :
    s.permits.held.Perm (s.connections.map fun c => .task c.number) := by
  have hperm := hi.owners
  rwa [owners_of_not_holds h] at hperm

theorem Inv.loop_mem (hi : s.Inv maxConnections) (h : s.loopHolds = true) :
    PermitOwner.loop ∈ s.permits.held :=
  (hi.held_of_holds h).symm.subset List.mem_cons_self

/-- The loop may move on with its permit. -/
theorem Inv.of_holds (hi : s.Inv maxConnections) (hs : s.loopHolds = true)
    (ht : t.loopHolds = true) (hconnections : t.connections = s.connections)
    (hpermits : t.permits = s.permits) : t.Inv maxConnections := by
  refine ⟨?_, ?_⟩
  · rw [owners_of_holds ht, hconnections, hpermits]
    exact hi.held_of_holds hs
  · rw [hpermits]
    exact hi.permits

theorem inv_step (hi : s.Inv maxConnections) (h : s.step a = some t) : t.Inv maxConnections := by
  cases step_to h with
  | acquired permits hl hp =>
    obtain ⟨hheld, hpermits⟩ := Semaphore.acquire_eq_some hp
    have hnone : s.loopHolds = false := by rw [loopHolds, hl]
    refine ⟨?_, hpermits.trans hi.permits⟩
    show permits.held.Perm (.loop :: s.connections.map fun c => .task c.number)
    rw [hheld]
    exact (hi.held_of_not_holds hnone).cons _
  | accepted hl =>
    have hholds : s.loopHolds = true := by rw [loopHolds, hl]
    exact hi.of_holds hholds rfl rfl rfl
  | acceptFailed hl =>
    have hholds : s.loopHolds = true := by rw [loopHolds, hl]
    exact hi.of_holds hholds rfl rfl rfl
  | spawn hl =>
    have hholds : s.loopHolds = true := by rw [loopHolds, hl]
    have hheld := Semaphore.held_transfer (j := .task s.spawned) (hi.held_of_holds hholds)
    have hpermits := Semaphore.permits_transfer (j := .task s.spawned) (hi.loop_mem hholds)
    refine ⟨hheld.trans ?_, hpermits.trans hi.permits⟩
    -- the new task comes last
    rw [owners_of_not_holds rfl, List.map_append]
    exact (List.perm_append_singleton _ _).symm
  | continued hl =>
    have hholds : s.loopHolds = true := by rw [loopHolds, hl]
    have hpermits := Semaphore.permits_release (hi.loop_mem hholds)
    refine ⟨?_, hpermits.trans hi.permits⟩
    rw [owners_of_not_holds rfl]
    exact Semaphore.held_release (hi.held_of_holds hholds)
  | served c ok hc =>
    refine ⟨(hi.owners.trans (owners_perm hc)).trans ?_, hi.permits⟩
    have happend : (s.connections.erase c ++ [{ c with pc := .served }]).map
        (fun c : Connection => PermitOwner.task c.number) =
        (s.connections.erase c).map (fun c => .task c.number) ++ [.task c.number] :=
      List.map_append
    show (PermitOwner.task c.number :: (_ ++ _)).Perm (_ ++ _)
    rw [happend, ← List.append_assoc]
    exact (List.perm_append_singleton _ _).symm
  | ended c hc => exact hi.drop hc
  | unwound c hc => exact hi.drop hc

theorem inv_run (h : FreeRun step (new maxConnections) as s) : s.Inv maxConnections :=
  h.invariant inv_new fun _ _ _ hi _ hst => inv_step hi hst

/-! ### The cap -/

/-- The permits in every state: those of the live connections, those available, and the one that the
loop may hold. -/
theorem Inv.length_eq (hi : s.Inv maxConnections) :
    s.connections.length + s.permits.available + (if s.loopHolds then 1 else 0) =
      maxConnections := by
  have hlength : s.permits.held.length =
      (if s.loopHolds then 1 else 0) + s.connections.length := by
    rw [hi.owners.length_eq, Serve.owners, List.length_append, List.length_map]
    split_ifs
    · rfl
    · rfl
  have hpermits : s.permits.available + s.permits.held.length = maxConnections := hi.permits
  omega

/-- **The cap holds and permits never leak.** In every state of every run the live connections, the
available permits and the one that the loop may hold are as many as the cap; so no more connections
are live than it says, and where none is live and the loop holds no permit all are available. -/
theorem permits_conserved {maxConnections : ℕ} {as : List ServeAction} {s : Serve}
    (h : FreeRun step (new maxConnections) as s) :
    s.connections.length + s.permits.available + (if s.loopHolds then 1 else 0) =
        maxConnections ∧
      s.connections.length ≤ maxConnections ∧
      (s.connections = [] → s.loopHolds = false → s.permits.available = maxConnections) := by
  have hlength := (inv_run h).length_eq
  refine ⟨hlength, by omega, fun hnone hloop => ?_⟩
  rw [hnone, hloop] at hlength
  simpa using hlength

/-- A failed accept, a connection that is served, and one that unwinds. -/
def threeAccepts : List ServeAction :=
  [.acquired, .acceptFailed, .continued, .acquired, .accepted, .spawn, .acquired, .accepted, .spawn,
    .served ⟨0, .serving⟩ false, .unwound ⟨1, .serving⟩, .ended ⟨0, .served⟩]

theorem permits_conserved_threeAccepts :
    ∃ s, FreeRun step serveWithLimits threeAccepts s ∧ s.spawned = 2 ∧
      s.connections.length + s.permits.available + (if s.loopHolds then 1 else 0) =
        MAX_CONNECTIONS := by
  obtain ⟨s, hs⟩ : ∃ s, runActions step (fun _ _ => True) serveWithLimits threeAccepts =
      some s := ⟨_, rfl⟩
  have hrun := run_of_runActions _ hs
  refine ⟨s, hrun, ?_, (permits_conserved hrun).1⟩
  obtain rfl := Option.some.inj hs
  rfl

end Huginn.Web.Serve
