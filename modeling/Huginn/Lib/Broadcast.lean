import Mathlib.Tactic.Common

/-!
# A bounded broadcast channel

The documented behaviour of a broadcast channel: every message sent is kept until `capacity` newer
ones have been sent, and every receiver reads the messages sent after it subscribed, in the order in
which they were sent. A receiver that has fallen behind what is kept is told how many messages it
missed (`Recv.lagged`) and goes on from the oldest one kept. Once no sender is left and nothing is
left to read it gets `Recv.closed`.

A receiver is the position in the sequence of all messages at which it reads next. The capacity is
the number of messages that the channel keeps, which may be more than it was asked for: tokio rounds
that up to a power of two.
-/

namespace Huginn

/-- What a completed `recv` returns. -/
inductive Recv (α : Type*)
  | ok (a : α)
  | lagged (missed : ℕ)
  | closed
  deriving DecidableEq, Repr

/-- A broadcast channel: how many messages are kept for slow receivers, every message sent so far,
oldest first, and how many senders are alive. -/
structure Broadcast (α : Type*) where
  capacity : ℕ
  sent : List α
  senders : ℕ
  deriving DecidableEq, Repr

namespace Broadcast

variable {α : Type*} (ch : Broadcast α)

/-- The position at which a new receiver reads next. -/
def subscribe : ℕ := ch.sent.length

/-- The position of the oldest message still kept. -/
def oldest : ℕ := ch.sent.length - ch.capacity

/-- Send a message. -/
def send (a : α) : Broadcast α := { ch with sent := ch.sent ++ [a] }

/-- Clone a sender. -/
def addSender : Broadcast α := { ch with senders := ch.senders + 1 }

/-- Drop a sender. -/
def dropSender : Broadcast α := { ch with senders := ch.senders - 1 }

/-- `recv` at position `next`: the result and the new position, or `none` while it has to wait. -/
def recv (next : ℕ) : Option (Recv α × ℕ) :=
  -- what the receiver has not read is no longer kept
  if next < ch.oldest then some (.lagged (ch.oldest - next), ch.oldest)
  else
    match ch.sent[next]? with
    | some a => some (.ok a, next + 1)
    | none => if ch.senders = 0 then some (.closed, next) else none

end Broadcast

end Huginn
