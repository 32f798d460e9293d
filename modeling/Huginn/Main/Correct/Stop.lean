import Huginn.Main.Correct.Drain

/-!
# No stop signal is lost

Once the signal task has finished and `scheduler::run` has returned, no sender of the shutdown
channel is left (`Process.SendersInv`). So every `recv` on it completes, with the signal or because
the channel is closed, whichever receivers there were when the signal was sent
(`Process.stop_seen`).
-/

namespace Huginn

/-- A channel without senders keeps no receiver waiting. -/
theorem Broadcast.isSome_recv {α : Type*} {ch : Broadcast α} (h : ch.senders = 0) (next : ℕ) :
    (ch.recv next).isSome = true := by
  unfold recv
  split_ifs with hlag
  · rfl
  · cases ch.sent[next]? with
    | some a => rfl
    | none => rfl

namespace Main

open Influx

/-- `scheduler::run` has not dropped the sender that it was given, or is to be given. -/
def MainPc.holdsSender : MainPc → Bool
  | .spawnBatcher | .spawnWriter | .subscribe | .scheduling _ => true
  | .waiting _ | .stopping _ | .dropHub _ | .draining _ | .finished _ => false

namespace Process

variable {F : Type} [F64 F] {args : ProcessArgs} {s t : Process F} {a : ProcessAction F}
  {as : List (ProcessAction F)}

/-- `scheduler::run` has returned. -/
def Scheduled (s : Process F) : Prop :=
  s.main.holdsSender = false ∧ s.main ≠ .finished .startupFailed

/-- The senders of the shutdown channel: one of the signal task until it has finished, and one of
`run` until `scheduler::run` has dropped it. -/
def SendersInv (s : Process F) : Prop :=
  s.main ≠ .finished .startupFailed →
    s.shutdown.senders = (if s.signal = .finished then 0 else 1) +
      if s.main.holdsSender then 1 else 0

omit [F64 F] in
theorem sendersInv_new : (new args : Process F).SendersInv := fun _ => rfl

omit [F64 F] in
/-- A step of `run` that neither fails nor leaves the scheduler keeps the invariant. -/
theorem SendersInv.of_main (h : s.SendersInv) (hfailed : s.main ≠ .finished .startupFailed)
    (hshutdown : t.shutdown = s.shutdown) (hsignal : t.signal = s.signal)
    (hholds : t.main.holdsSender = s.main.holdsSender) : t.SendersInv := by
  intro _
  rw [hshutdown, hsignal, hholds]
  exact h hfailed

theorem sendersInv_step (h : s.SendersInv) (hst : s.step args a = some t) : t.SendersInv := by
  have hrunning := not_finished_of_step hst .startupFailed
  have hsenders := h hrunning
  cases step_to hst with
  | signal hs =>
    intro _
    simpa [hs, Broadcast.send] using hsenders
  | signalExit hs =>
    intro _
    simp only [hs, reduceCtorEq, if_false] at hsenders
    simp [Broadcast.dropSender, hsenders]
  | scheduled rx hm hle =>
    intro _
    simp only [hm, MainPc.holdsSender, if_true] at hsenders
    simp [Broadcast.dropSender, hsenders, MainPc.holdsSender]
  | startFails => exact fun hne => absurd rfl hne
  | spawnBatcher hm | spawnWriter hm | subscribe hm =>
    exact h.of_main hrunning rfl rfl (by rw [hm]; rfl)
  | wake rx hm | join n l hm | joined n hm | graceOver n hm | dropHub stopped hm
  | drained stopped hm | drainOver stopped hm =>
    exact h.of_main hrunning rfl rfl (by rw [hm]; rfl)
  | spawnLoop | tick | publish | stop | cancel | recv | abandon | pipeline =>
    exact h.of_main hrunning rfl rfl rfl

theorem sendersInv_run (h : FreeRun (step args) (new args) as s) : s.SendersInv :=
  h.invariant (I := SendersInv) sendersInv_new fun _ _ _ hi _ hst => sendersInv_step hi hst

/-- **No stop signal is lost.** In every state of every run with the signal task finished and
`scheduler::run` returned, the `recv` of `run` completes, and so does that of every probe loop, with
a message or with the channel closed. -/
theorem stop_seen {F : Type} [F64 F] {args : ProcessArgs} {as : List (ProcessAction F)}
    {s : Process F} (h : FreeRun (step args) (new args) as s) (hsignal : s.signal = .finished)
    (hscheduled : s.Scheduled) :
    (∀ rx, s.main = .waiting rx → s.sees rx = true) ∧
      ∀ l ∈ s.loops, l.pc ≠ .stopped → s.sees l.shutdownRx = true := by
  have hnone : s.shutdown.senders = 0 := by
    rw [sendersInv_run h hscheduled.2, hsignal, hscheduled.1]
    rfl
  exact ⟨fun rx _ => Broadcast.isSome_recv hnone rx,
    fun l _ _ => Broadcast.isSome_recv hnone l.shutdownRx⟩

/-- The signal is sent, and its task over, before anything but the batcher is subscribed. -/
def signalFirst : List (ProcessAction Decimal) :=
  [.start, .signal, .signalExit, .start, .start, .start, .start]

theorem stop_seen_signalFirst :
    ∃ s, FreeRun (step sampleArgs) (new sampleArgs) signalFirst s ∧
      s.main = .waiting 1 ∧ s.loops = [⟨.waiting, 1, false⟩] ∧
      (∀ rx, s.main = .waiting rx → s.sees rx = true) ∧
      ∀ l ∈ s.loops, l.pc ≠ .stopped → s.sees l.shutdownRx = true := by
  obtain ⟨s, hs⟩ : ∃ s, runActions (step sampleArgs) (fun _ _ => True) (new sampleArgs)
      signalFirst = some s := ⟨_, rfl⟩
  have hend : s.main = .waiting 1 ∧ s.loops = [⟨.waiting, 1, false⟩] ∧ s.signal = .finished := by
    obtain rfl := Option.some.inj hs
    exact ⟨rfl, rfl, rfl⟩
  have hrun := run_of_runActions _ hs
  refine ⟨s, hrun, hend.1, hend.2.1, stop_seen hrun hend.2.2 ?_⟩
  rw [Scheduled, hend.1]
  exact ⟨rfl, by decide⟩

end Process

end Main

end Huginn
