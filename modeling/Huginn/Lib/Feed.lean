import Huginn.Lib.Broadcast
import Huginn.Lib.LastWrite
import Huginn.Lib.Run
import Mathlib.Algebra.BigOperators.Group.List.Basic
import Mathlib.Algebra.Ring.Nat
import Mathlib.Data.List.Basic

/-!
# What a receiver has been told

A `Feed` is a receiver of a broadcast channel with everything that its `recv` has returned so far.
Whatever the channel and the other receivers do in the meantime, a feed accounts for every message
sent since it subscribed (`Feed.Inv`): the messages it was given are among them, in order, the ones
it was not given are counted, and those that are still kept are never among the latter.

So a reader that only wants the last message of each key has the right one for every key whose last
message is still kept (`Feed.Inv.lastTo_received`), and for every key as long as nothing was missed
(`Feed.Inv.received_eq_iff`).

However far behind a reader is, it has read everything after a number of steps that the capacity
bounds (`Feed.backlog_le`, `Feed.Inv.event_of_backlog`).
-/

namespace Huginn

variable {α : Type*}

namespace Recv

/-- The message, if it is one. -/
def message : Recv α → Option α
  | ok a => some a
  | lagged _ | closed => none

/-- How many messages were missed. -/
def missed : Recv α → ℕ
  | lagged n => n
  | ok _ | closed => 0

/-- Whether it is the end of the channel. -/
def isClosed : Recv α → Bool
  | closed => true
  | ok _ | lagged _ => false

end Recv

/-- A receiver: where it subscribed, where it reads next, and what `recv` has returned, oldest
first. -/
structure Feed (α : Type*) where
  start : ℕ
  next : ℕ
  log : List (Recv α)
  deriving DecidableEq, Repr

namespace Feed

variable {ch : Broadcast α} {f g : Feed α} {a : α}

/-- A new receiver. -/
def subscribe (ch : Broadcast α) : Feed α := ⟨ch.subscribe, ch.subscribe, []⟩

/-- One more event. -/
def push (f : Feed α) (event : Recv α) (next : ℕ) : Feed α :=
  { f with next := next, log := f.log ++ [event] }

/-- Whether the end of the channel was reported. -/
def ended (f : Feed α) : Bool := f.log.any Recv.isClosed

/-- What a `recv` returns, and where the receiver goes on; `none` while it has to wait. Nobody reads
on after the end. -/
def event (ch : Broadcast α) (f : Feed α) : Option (Recv α × ℕ) :=
  if f.ended then none else ch.recv f.next

/-- One `recv`. -/
def recv (ch : Broadcast α) (f : Feed α) : Option (Feed α) :=
  (f.event ch).map fun (event, next) => f.push event next

/-- The messages received. -/
def received (f : Feed α) : List α := f.log.filterMap Recv.message

/-- How many messages were reported as missed. -/
def missed (f : Feed α) : ℕ := (f.log.map Recv.missed).sum

/-- The messages that the feed could have been given so far. -/
def due (ch : Broadcast α) (f : Feed α) : List α := (ch.sent.take f.next).drop f.start

/-- The messages among these that are still kept. -/
def recent (ch : Broadcast α) (f : Feed α) : List α :=
  (ch.sent.take f.next).drop (max f.start ch.oldest)

/-- What holds of a receiver at all times. -/
structure Inv (ch : Broadcast α) (f : Feed α) : Prop where
  start_le : f.start ≤ f.next
  next_le : f.next ≤ ch.sent.length
  /-- Every message is received or counted. -/
  accounted : f.received.length + f.missed = f.next - f.start
  /-- Nothing is received twice, out of order, or that was not sent. -/
  sublist : f.received.Sublist (f.due ch)
  /-- What is still kept was received. -/
  newest : f.recent ch <:+ f.received
  /-- The end of the channel comes after everything else. -/
  ended : f.ended = true → ch.senders = 0 ∧ f.next = ch.sent.length

/-! ### What `recv` does -/

/-- What a `recv` that completes can return, and where it goes on. -/
inductive RecvTo (ch : Broadcast α) (next : ℕ) : Recv α → ℕ → Prop
  | lagged (h : next < ch.oldest) : RecvTo ch next (.lagged (ch.oldest - next)) ch.oldest
  | ok (a : α) (h : ch.oldest ≤ next) (ha : ch.sent[next]? = some a) :
      RecvTo ch next (.ok a) (next + 1)
  | closed (h : ch.sent.length ≤ next) (hs : ch.senders = 0) : RecvTo ch next .closed next

theorem recv_to {next next' : ℕ} {event : Recv α} (h : ch.recv next = some (event, next')) :
    RecvTo ch next event next' := by
  unfold Broadcast.recv at h
  by_cases hlag : next < ch.oldest
  · rw [if_pos hlag] at h
    obtain ⟨rfl, rfl⟩ := Prod.mk.inj (Option.some.inj h)
    exact .lagged hlag
  · rw [if_neg hlag] at h
    split at h
    · next a ha =>
      obtain ⟨rfl, rfl⟩ := Prod.mk.inj (Option.some.inj h)
      exact .ok a (by omega) ha
    · next hnone =>
      rw [Option.ite_none_right_eq_some] at h
      obtain ⟨rfl, rfl⟩ := Prod.mk.inj (Option.some.inj h.2)
      exact .closed (List.getElem?_eq_none_iff.mp hnone) h.1

/-- A `recv` only waits when everything has been read and there is a sender. -/
theorem recv_eq_none_iff {next : ℕ} (h : next ≤ ch.sent.length) :
    ch.recv next = none ↔ next = ch.sent.length ∧ ch.senders ≠ 0 := by
  have hold : ch.oldest ≤ ch.sent.length := Nat.sub_le _ _
  unfold Broadcast.recv
  by_cases hlag : next < ch.oldest
  · rw [if_pos hlag]
    simp only [reduceCtorEq, false_iff]
    omega
  · rw [if_neg hlag]
    rcases Nat.lt_or_ge next ch.sent.length with hlt | hge
    · rw [List.getElem?_eq_getElem hlt]
      simp only [reduceCtorEq, false_iff]
      omega
    · rw [List.getElem?_eq_none hge]
      have heq : next = ch.sent.length := by omega
      simp [heq]

theorem received_push (event : Recv α) (next : ℕ) :
    (f.push event next).received = f.received ++ event.message.toList := by
  unfold received push
  rw [List.filterMap_append]
  cases event <;> rfl

theorem missed_push (event : Recv α) (next : ℕ) :
    (f.push event next).missed = f.missed + event.missed := by
  unfold missed push
  rw [List.map_append, List.sum_append, List.map_singleton, List.sum_singleton]

theorem ended_push (event : Recv α) (next : ℕ) :
    (f.push event next).ended = (f.ended || event.isClosed) := by
  unfold ended push
  rw [List.any_append, List.any_cons, List.any_nil, Bool.or_false]

theorem event_to {e : Recv α} {next : ℕ} (h : f.event ch = some (e, next)) :
    f.ended = false ∧ RecvTo ch f.next e next := by
  unfold event at h
  split_ifs at h with hended
  exact ⟨by simpa using hended, recv_to h⟩

/-! ### The invariant -/

theorem inv_subscribe (ch : Broadcast α) : (subscribe ch).Inv ch where
  start_le := Nat.le_refl _
  next_le := Nat.le_refl _
  accounted := (Nat.sub_self _).symm
  sublist := List.nil_sublist _
  newest := by
    have hnone : (subscribe ch).recent ch = [] := by
      apply List.drop_eq_nil_of_le
      rw [List.length_take]
      exact Nat.le_trans (Nat.min_le_left _ _) (Nat.le_max_left _ _)
    rw [hnone]
    exact List.nil_suffix
  ended := fun h => absurd h Bool.false_ne_true

/-- A message is sent: what the receiver has read stays as it was, and less of it is kept. -/
theorem Inv.send (hi : f.Inv ch) (hs : ch.senders ≠ 0) : f.Inv (ch.send a) := by
  have htake : (ch.send a).sent.take f.next = ch.sent.take f.next :=
    List.take_append_of_le_length hi.next_le
  have hlen : (ch.send a).sent.length = ch.sent.length + 1 := List.length_append
  have hold : ch.oldest ≤ (ch.send a).oldest := by
    show ch.sent.length - ch.capacity ≤ (ch.send a).sent.length - ch.capacity
    omega
  refine ⟨hi.start_le, ?_, hi.accounted, ?_, ?_, fun h => absurd (hi.ended h).1 hs⟩
  · have hle := hi.next_le
    omega
  · show f.received.Sublist (((ch.send a).sent.take f.next).drop f.start)
    rw [htake]
    exact hi.sublist
  · show ((ch.send a).sent.take f.next).drop (max f.start (ch.send a).oldest) <:+ f.received
    rw [htake]
    refine List.IsSuffix.trans ?_ hi.newest
    apply List.drop_suffix_drop_left
    omega

/-- A sender comes or goes, but never the first one after the last. -/
theorem Inv.senders (hi : f.Inv ch) {n : ℕ} (hs : ch.senders = 0 → n = 0) :
    f.Inv { ch with senders := n } :=
  ⟨hi.start_le, hi.next_le, hi.accounted, hi.sublist, hi.newest,
    fun h => ⟨hs (hi.ended h).1, (hi.ended h).2⟩⟩

/-- The receiver reads. -/
theorem Inv.push (hi : f.Inv ch) {e : Recv α} {next : ℕ} (h : f.event ch = some (e, next)) :
    (f.push e next).Inv ch := by
  obtain ⟨hopen, hto⟩ := event_to h
  have hacc := hi.accounted
  have hstart := hi.start_le
  have hold : ch.oldest ≤ ch.sent.length := Nat.sub_le _ _
  have hsub : f.received.Sublist ((ch.sent.take f.next).drop f.start) := hi.sublist
  cases hto with
  | lagged hlag =>
    refine ⟨by show f.start ≤ ch.oldest; omega, hold, ?_, ?_, ?_, ?_⟩
    · rw [received_push, missed_push]
      show (f.received ++ []).length + (f.missed + (ch.oldest - f.next)) = ch.oldest - f.start
      rw [List.append_nil]
      omega
    · rw [received_push]
      show (f.received ++ []).Sublist ((ch.sent.take ch.oldest).drop f.start)
      rw [List.append_nil]
      refine hsub.trans (List.Sublist.drop ?_ _)
      exact (List.take_prefix_take_left (by omega)).sublist
    · -- nothing is left of what was kept
      have hnone : (f.push (.lagged (ch.oldest - f.next)) ch.oldest).recent ch = [] := by
        apply List.drop_eq_nil_of_le
        rw [List.length_take]
        exact Nat.le_trans (Nat.min_le_left _ _) (Nat.le_max_right _ _)
      rw [hnone]
      exact List.nil_suffix
    · rw [ended_push, hopen]
      exact fun hclosed => absurd hclosed Bool.false_ne_true
  | ok a hkept ha =>
    have hlt : f.next < ch.sent.length := (List.getElem?_eq_some_iff.mp ha).1
    have htake : ch.sent.take (f.next + 1) = ch.sent.take f.next ++ [a] := by
      rw [List.take_add_one, ha]
      rfl
    have hlen : (ch.sent.take f.next).length = f.next := by
      rw [List.length_take]
      omega
    refine ⟨by show f.start ≤ f.next + 1; omega, hlt, ?_, ?_, ?_, ?_⟩
    · rw [received_push, missed_push]
      show (f.received ++ [a]).length + (f.missed + 0) = f.next + 1 - f.start
      rw [List.length_append, List.length_singleton]
      omega
    · rw [received_push]
      show (f.received ++ [a]).Sublist ((ch.sent.take (f.next + 1)).drop f.start)
      rw [htake, List.drop_append_of_le_length (by omega)]
      exact hsub.append (List.Sublist.refl _)
    · rw [received_push]
      show (ch.sent.take (f.next + 1)).drop (max f.start ch.oldest) <:+ f.received ++ [a]
      rw [htake, List.drop_append_of_le_length (by omega)]
      obtain ⟨l, hl⟩ := hi.newest
      exact ⟨l, by rw [← List.append_assoc, show l ++ (ch.sent.take f.next).drop _ = _ from hl]⟩
    · rw [ended_push, hopen]
      exact fun hclosed => absurd hclosed Bool.false_ne_true
  | closed hend hs =>
    have hle := hi.next_le
    refine ⟨hstart, hle, ?_, ?_, ?_, fun _ => ⟨hs, by show f.next = ch.sent.length; omega⟩⟩
    · rw [received_push, missed_push]
      show (f.received ++ []).length + (f.missed + 0) = f.next - f.start
      rw [List.append_nil]
      omega
    · rw [received_push]
      show (f.received ++ []).Sublist _
      rw [List.append_nil]
      exact hsub
    · rw [received_push]
      show f.recent ch <:+ f.received ++ []
      rw [List.append_nil]
      exact hi.newest

theorem Inv.recv (hi : f.Inv ch) (h : f.recv ch = some g) : g.Inv ch := by
  obtain ⟨⟨e, next⟩, hevent, rfl⟩ := Option.map_eq_some_iff.mp h
  exact hi.push hevent

/-! ### What follows -/

theorem Inv.length_due (hi : f.Inv ch) : (f.due ch).length = f.next - f.start := by
  have hle := hi.next_le
  rw [due, List.length_drop, List.length_take]
  omega

/-- **A receiver has everything it is due exactly when nothing was reported as missed.** -/
theorem Inv.received_eq_iff (hi : f.Inv ch) : f.received = f.due ch ↔ f.missed = 0 := by
  have hacc := hi.accounted
  have hlen := hi.length_due
  constructor
  · intro heq
    rw [heq] at hacc
    omega
  · intro hnone
    exact hi.sublist.eq_of_length (by omega)

theorem Inv.mem_sent (hi : f.Inv ch) (ha : a ∈ f.received) : a ∈ ch.sent :=
  List.mem_of_mem_take (List.mem_of_mem_drop (hi.sublist.subset ha))

/-- **The last message of a key is received as long as it is kept.** Whoever has read everything,
with however many gaps, has the last message of every key whose last message is still kept. -/
theorem Inv.lastTo_received {κ : Type*} [DecidableEq κ] {key : α → κ} (hi : f.Inv ch)
    (hend : f.next = ch.sent.length) {k : κ}
    (hk : lastTo key (ch.sent.drop (max f.start ch.oldest)) k ≠ none) :
    lastTo key f.received k = lastTo key ch.sent k := by
  obtain ⟨l, hl⟩ := hi.newest
  have hrecent : f.recent ch = ch.sent.drop (max f.start ch.oldest) := by
    rw [recent, hend, List.take_length]
  obtain ⟨a, ha⟩ := Option.ne_none_iff_exists'.mp hk
  rw [hrecent] at hl
  have hsent : lastTo key ch.sent k = some a := by
    rw [← List.take_append_drop (max f.start ch.oldest) ch.sent, lastTo_append, ha, Option.some_or]
  rw [hsent, ← hl, lastTo_append, ha, Option.some_or]

/-! ### Catching up -/

/-- How many times the receiver has to read until it has read everything: once for what it has
missed, and once for each message that is kept. -/
def backlog (ch : Broadcast α) (f : Feed α) : ℕ :=
  (ch.sent.length - max f.next ch.oldest) + if f.next < ch.oldest then 1 else 0

/-- However far behind a receiver is, the capacity bounds what it has to read. -/
theorem backlog_le (ch : Broadcast α) (f : Feed α) : f.backlog ch ≤ ch.capacity + 1 := by
  have hold : ch.oldest = ch.sent.length - ch.capacity := rfl
  unfold backlog
  split_ifs with hlag
  · omega
  · omega

theorem Inv.backlog_eq_zero_iff (hi : f.Inv ch) : f.backlog ch = 0 ↔ f.next = ch.sent.length := by
  have hle := hi.next_le
  have hold : ch.oldest ≤ ch.sent.length := Nat.sub_le _ _
  unfold backlog
  split_ifs with hlag
  · have hbehind : f.next ≠ ch.sent.length := by omega
    simp [hbehind]
  · omega

/-- As long as there is something to read, reading goes on, and there is less to read then. -/
theorem Inv.event_of_backlog (hi : f.Inv ch) (h : f.backlog ch ≠ 0) :
    ∃ e next, f.event ch = some (e, next) ∧ (f.push e next).backlog ch < f.backlog ch := by
  have hle := hi.next_le
  have hold : ch.oldest ≤ ch.sent.length := Nat.sub_le _ _
  have hbehind : f.next ≠ ch.sent.length := fun heq => h (hi.backlog_eq_zero_iff.mpr heq)
  have hopen : f.ended = false := by
    by_contra hended
    exact hbehind (hi.ended (by simpa using hended)).2
  have hsome : ch.recv f.next ≠ none := fun hnone => hbehind ((recv_eq_none_iff hle).mp hnone).1
  obtain ⟨⟨e, next⟩, hrecv⟩ := Option.ne_none_iff_exists'.mp hsome
  refine ⟨e, next, by rw [event, hopen]; exact hrecv, ?_⟩
  cases recv_to hrecv with
  | lagged hlag =>
    show ch.sent.length - max ch.oldest ch.oldest + (if ch.oldest < ch.oldest then 1 else 0) <
      ch.sent.length - max f.next ch.oldest + if f.next < ch.oldest then 1 else 0
    rw [if_pos hlag, if_neg (Nat.lt_irrefl _)]
    omega
  | ok a hkept ha =>
    show ch.sent.length - max (f.next + 1) ch.oldest + (if f.next + 1 < ch.oldest then 1 else 0) <
      ch.sent.length - max f.next ch.oldest + if f.next < ch.oldest then 1 else 0
    rw [if_neg (by omega), if_neg (by omega)]
    omega
  | closed hend hs => omega

/-- While there is a sender, whatever is read leaves less to read. -/
theorem Inv.backlog_push_lt (hi : f.Inv ch) (hs : ch.senders ≠ 0) {e : Recv α} {next : ℕ}
    (h : f.event ch = some (e, next)) : (f.push e next).backlog ch < f.backlog ch := by
  have hsome : f.backlog ch ≠ 0 := by
    intro hzero
    have hwait : ch.recv f.next = none :=
      (recv_eq_none_iff hi.next_le).mpr ⟨hi.backlog_eq_zero_iff.mp hzero, hs⟩
    rw [event, hwait, ite_self] at h
    cases h
  obtain ⟨e', next', hevent, hlt⟩ := hi.event_of_backlog hsome
  obtain ⟨rfl, rfl⟩ := Prod.mk.inj (Option.some.inj (h.symm.trans hevent))
  exact hlt

end Feed

end Huginn
