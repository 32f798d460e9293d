import Huginn.Core.HashMap
import Huginn.Influx.LineReader
import Huginn.Influx.Pipeline

/-!
# The database behind the pipeline

What InfluxDB documents about the points that it is given: a point is identified by its measurement,
its tags and its timestamp, and a field of a point that is there already takes its new value. It is
assumed of the bucket that it is empty at the start, that nobody else writes to it, and that nothing
in it is deleted, neither by a request nor at the end of a retention period.

A request is answered, or it is not, whatever became of it: the points of a request can be stored
and the answer lost, they can be stored when the writer has given up on the request, more than once,
or in part. A run of `Backend.step` is an interleaving of the pipeline with such a database. The
tags of a point are always written in one order, so a list of them identifies the series.
-/

namespace Huginn.Influx

/-- Where a value is stored: the series and the time of its point, and the field. -/
structure Cell where
  measurement : String
  tags : List (String × String)
  timestamp : ℤ
  field : String
  deriving DecidableEq, Repr

/-- The values of a point, and where they are stored. -/
def Point.cells (p : Point) : List (Cell × FieldValue) :=
  p.fields.map fun f => (⟨p.measurement, p.tags, p.timestamp, f.1⟩, f.2)

/-- The values that are stored. -/
abbrev Database := HashMap Cell FieldValue

namespace Database

/-- Store values, one after the other. -/
def write (db : Database) (values : List (Cell × FieldValue)) : Database :=
  values.foldl (fun db e => db.insert e.1 e.2) db

end Database

/-- The points of a request. A text that is not line protocol has none. -/
def batchPoints (batch : Batch) : List Point := (Point.readBatch batch.text).getD []

/-- The pipeline, and the database that it writes to. -/
structure Backend (F : Type) where
  pipe : Pipeline F
  db : Database
  -- the history: the requests made, and the points that were stored of which, in order
  sent : List Batch
  stored : List (Batch × List Point)

inductive BackendAction (F : Type)
  | pipe (a : PipelineAction F)
  -- points of a request that was made are stored
  | store (batch : Batch) (points : List Point)
  deriving DecidableEq

namespace Backend

variable {F : Type} [F64 F]

/-- Both tasks at their start, and an empty database. -/
def new (capacityBytes : ℕ) : Backend F := ⟨.new capacityBytes, .empty, [], []⟩

/-- The request that `write_lines` makes. -/
def sending (p : Pipeline F) : Option Batch :=
  match p.writer with
  | .writing batch _ => some batch
  | .waiting | .answered _ | .backoff _ _ _ | .returned => none

def step (args : PipelineArgs) (s : Backend F) : BackendAction F → Option (Backend F)
  | .pipe a =>
    (s.pipe.step args a).map fun pipe =>
      { s with pipe := pipe, sent := s.sent ++ (sending pipe).toList }
  | .store batch points =>
    if batch ∈ s.sent ∧ points.Sublist (batchPoints batch) then
      some { s with
        db := s.db.write (points.flatMap Point.cells)
        stored := s.stored ++ [(batch, points)] }
    else none

/-! ### What is asked of it -/

/-- A request is answered with a success only when all of its points have been stored. What counts
as the answer is what `write_lines` returns: the client follows redirects, so this says of a server
that sends a request elsewhere that the answer from there is as good as its own. -/
def Truthful (s : Backend F) (a : BackendAction F) : Prop :=
  match a with
  | .pipe (.answer (.ok ()) _) =>
    ∀ batch ∈ sending s.pipe, (batch, batchPoints batch) ∈ s.stored
  | _ => True

/-- A request is stored as a whole, and not after the writer has given up on it. -/
def InTime (s : Backend F) (a : BackendAction F) : Prop :=
  match a with
  | .store batch points => sending s.pipe = some batch ∧ points = batchPoints batch
  | .pipe _ => True

/-- Only results that satisfy `P` are received. -/
def Receives (P : ProbeResult F → Prop) (a : BackendAction F) : Prop :=
  match a with
  | .pipe (.recv (.ok result)) => P result
  | _ => True

/-- The batches of which something was stored, each of them once and in the order in which they were
pushed. -/
def delivered (s : Backend F) : List Batch :=
  (s.pipe.pushed.map Pushed.batch).filter (· ∈ s.stored.map Prod.fst)

end Backend

end Huginn.Influx
