import Huginn.Lib.Run
import Huginn.Web.State

/-!
# The dashboard

The page of the debug UI and the server it talks to. The page opens the event stream (`/events`) and
asks for a snapshot (`/metrics/latest`), on two connections which the server may handle in either
order. It keeps one row for each probe, and holds back the messages of the stream until the snapshot
has been applied.

A run of `Dashboard.step` is an interleaving of the event loop, of the two handlers, of the stream
and of the page. A row is the result that it shows. The page looks rows up by name, and the names in
a snapshot are distinct, so nothing depends on the order in which the map iterates.
-/

namespace Huginn.Web

variable {F : Type}

/-! ### The page -/

/-- The page: `rows`, `seeded` and `pending`. -/
structure Page (F : Type) where
  rows : HashMap String (ProbeResult F)
  seeded : Bool
  pending : List (ProbeResult F)

namespace Page

def new : Page F := ⟨.empty, false, []⟩

/-- `upsertRow`. -/
def upsertRow (p : Page F) (result : ProbeResult F) : Page F :=
  { p with rows := p.rows.insert result.probeName result }

/-- `es.onmessage`. -/
def onMessage (p : Page F) (result : ProbeResult F) : Page F :=
  if p.seeded then p.upsertRow result else { p with pending := p.pending ++ [result] }

/-- `seed`: apply the snapshot, if there is one, and then what has arrived in the meantime. -/
def seed (p : Page F) (results : Option (List (ProbeResult F))) : Page F :=
  let p := (results.getD []).foldl upsertRow p
  p.pending.foldl upsertRow { p with seeded := true, pending := [] }

end Page

/-! ### The system -/

/-- A client of `/events`: where its subscription began, and where it reads next. -/
structure Stream where
  subscribed : ℕ
  next : ℕ
  deriving DecidableEq, Repr

/-- The request for the snapshot: not yet handled, on its way back, applied, or failed. -/
inductive Fetch (F : Type)
  | asked
  | answered (results : List (ProbeResult F))
  | applied (results : List (ProbeResult F))
  | failed

/-- The server and one page. -/
structure Dashboard (F : Type) where
  web : WebState F
  /-- The result that the event loop has inserted and is about to send. -/
  sending : Option (ProbeResult F)
  stream : Option Stream
  /-- The messages on their way to the page. -/
  wire : List (ProbeResult F)
  fetch : Fetch F
  page : Page F

inductive DashboardAction (F : Type)
  -- the event loop
  | insert (result : ProbeResult F)
  | send
  -- the server handles `/events`, and its stream passes a message on
  | subscribe
  | forward
  -- the server handles `/metrics/latest`
  | read
  -- the page: a message, the snapshot, or its failure
  | deliver
  | seed
  | fail

namespace Dashboard

/-- The server at its start, and a page that has made its two requests. -/
def new : Dashboard F := ⟨.new, none, none, [], .asked, .new⟩

/-- The stream reads the channel. Of what it has missed it only logs how much that was. -/
def forwardStep (s : Dashboard F) (stream : Stream) : Option (Dashboard F) :=
  match s.web.sseTx.recv stream.next with
  | some (.ok result, next) =>
    some { s with stream := some { stream with next := next }, wire := s.wire ++ [result] }
  | some (.lagged _, next) => some { s with stream := some { stream with next := next } }
  | some (.closed, _) | none => none

def step (s : Dashboard F) : DashboardAction F → Option (Dashboard F)
  | .insert result =>
    match s.sending with
    | none => some { s with web := s.web.insert result, sending := some result }
    | some _ => none
  | .send =>
    match s.sending with
    | some result => some { s with web := s.web.send result, sending := none }
    | none => none
  | .subscribe =>
    match s.stream with
    | none => some { s with stream := some ⟨s.web.sseTx.subscribe, s.web.sseTx.subscribe⟩ }
    | some _ => none
  | .forward =>
    match s.stream with
    | some stream => s.forwardStep stream
    | none => none
  | .read =>
    match s.fetch with
    | .asked => some { s with fetch := .answered s.web.results.values }
    | .answered _ | .applied _ | .failed => none
  | .deliver =>
    match s.wire with
    | result :: wire => some { s with wire := wire, page := s.page.onMessage result }
    | [] => none
  | .seed =>
    match s.fetch with
    | .answered results =>
      some { s with fetch := .applied results, page := s.page.seed (some results) }
    | .asked | .applied _ | .failed => none
  | .fail =>
    match s.fetch with
    | .asked | .answered _ => some { s with fetch := .failed, page := s.page.seed none }
    | .applied _ | .failed => none

/-! ### What is asked of it -/

/-- The snapshot that the server has given. -/
def snapshot (s : Dashboard F) : Option (List (ProbeResult F)) :=
  match s.fetch with
  | .answered results | .applied results => some results
  | .asked | .failed => none

/-- The stream does not fall behind what the channel keeps. -/
def NoLag (s : Dashboard F) (a : DashboardAction F) : Prop :=
  match a, s.stream with
  | .forward, some stream => s.web.sseTx.oldest ≤ stream.next
  | _, _ => True

/-- The event loop is about to send a result of this probe. -/
def Sending (s : Dashboard F) (name : String) : Prop :=
  ∃ result ∈ s.sending, result.probeName = name

/-- Once the snapshot has been applied and every message since the subscription has been delivered,
each row shows the newest result of its probe; but for the probe whose message is about to be
sent. -/
def Converged (s : Dashboard F) : Prop :=
  ∀ results stream, s.fetch = .applied results → s.stream = some stream →
    stream.next = s.web.sseTx.sent.length → s.wire = [] →
      ∀ name, ¬ s.Sending name → s.page.rows.get name = s.web.results.get name

/-- The condition under which the page converges: where a snapshot has been given before the stream
is subscribed to, it is still what the map has; but for the probe whose message is about to be
sent. -/
def SnapshotCurrent (s : Dashboard F) (a : DashboardAction F) : Prop :=
  match a with
  | .subscribe => ∀ results ∈ s.snapshot, ∀ name, ¬ s.Sending name →
      lastResult results name = s.web.results.get name
  | _ => True

end Dashboard

end Huginn.Web
