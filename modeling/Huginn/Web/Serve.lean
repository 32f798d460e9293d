import Huginn.Lib.Run
import Huginn.Lib.Semaphore

/-!
# Serving with a connection cap

`serve_with`: the accept loop takes a permit before it accepts, and moves it into the task that
serves the connection. The task drops it when it ends, in whatever way.

A run of `Serve.step` is an interleaving of the loop and of the tasks that it has spawned. How a
connection is served, and which of them end how, is a choice of the environment.
-/

namespace Huginn.Web

/-- `MAX_CONNECTIONS`. -/
def MAX_CONNECTIONS : ℕ := 256

/-- Where the accept loop stands. -/
inductive AcceptPc
  | acquire
  | accept
  -- a connection has been accepted, and its task is yet to be spawned
  | spawn
  -- the accept has failed
  | failed
  deriving DecidableEq, Repr

/-- Where the task of a connection stands. -/
inductive ConnectionPc
  | serving
  -- `serve_connection` has returned, and the permit is yet to be dropped
  | served
  deriving DecidableEq, Repr

/-- The task of a connection, numbered in the order in which they are spawned. -/
structure Connection where
  number : ℕ
  pc : ConnectionPc
  deriving DecidableEq, Repr

/-- Who can own a permit: the loop, and the task with a number. -/
inductive PermitOwner
  | loop
  | task (number : ℕ)
  deriving DecidableEq, Repr

structure Serve where
  permits : Semaphore PermitOwner
  loop : AcceptPc
  spawned : ℕ
  -- the tasks that are live, in no particular order
  connections : List Connection
  deriving DecidableEq, Repr

inductive ServeAction
  -- the loop
  | acquired
  | accepted
  | acceptFailed
  | spawn
  | continued
  -- the task of a connection: `serve_connection` returns, with `Ok` or an error that is only
  -- logged; the task ends; or it unwinds, which drops what it owns
  | served (c : Connection) (ok : Bool)
  | ended (c : Connection)
  | unwound (c : Connection)
  deriving DecidableEq, Repr

namespace Serve

def new (maxConnections : ℕ) : Serve := ⟨.new maxConnections, .acquire, 0, []⟩

/-- `serve_with_limits`. -/
def serveWithLimits : Serve := new MAX_CONNECTIONS

/-- The end of a task, with which its permit is dropped. -/
def drop (s : Serve) (c : Connection) : Serve :=
  { s with permits := s.permits.release (.task c.number), connections := s.connections.erase c }

def step (s : Serve) : ServeAction → Option Serve
  | .acquired =>
    match s.loop with
    | .acquire =>
      (s.permits.acquire .loop).map fun permits => { s with permits := permits, loop := .accept }
    | .accept | .spawn | .failed => none
  | .accepted =>
    match s.loop with
    | .accept => some { s with loop := .spawn }
    | .acquire | .spawn | .failed => none
  | .acceptFailed =>
    match s.loop with
    | .accept => some { s with loop := .failed }
    | .acquire | .spawn | .failed => none
  | .spawn =>
    match s.loop with
    | .spawn => some
        { permits := s.permits.transfer .loop (.task s.spawned)
          loop := .acquire
          spawned := s.spawned + 1
          connections := s.connections ++ [⟨s.spawned, .serving⟩] }
    | .acquire | .accept | .failed => none
  | .continued =>
    match s.loop with
    -- the permit goes out of scope
    | .failed => some { s with permits := s.permits.release .loop, loop := .acquire }
    | .acquire | .accept | .spawn => none
  | .served c _ =>
    if c ∈ s.connections ∧ c.pc = .serving then
      some { s with connections := s.connections.erase c ++ [{ c with pc := .served }] }
    else none
  | .ended c => if c ∈ s.connections ∧ c.pc = .served then some (s.drop c) else none
  | .unwound c => if c ∈ s.connections then some (s.drop c) else none

/-- Whether the loop holds a permit. -/
def loopHolds (s : Serve) : Bool :=
  match s.loop with
  | .accept | .spawn | .failed => true
  | .acquire => false

end Serve

end Huginn.Web
