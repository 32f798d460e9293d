import Huginn.Influx.Pipeline

/-!
# Writing over HTTP

`InfluxWriter::write_lines` with the requests that the HTTP client makes for it. The client is
built without a redirect policy, so it follows up to ten redirects: a 301, 302 or 303 answer to
anything but a GET or a HEAD with a GET that has no body, a 307 or 308 with the same request. The
caller sees the answer to the last request only.

`HttpPipeline` is the pipeline with the request under way, so an answer of the server takes the
place of a result of `write_lines`. Every request and the status it was answered with are recorded
under the batch they were made for.
-/

namespace Huginn.Influx

inductive Method
  | get
  | post
  deriving DecidableEq, Repr

/-- A request, without its headers. -/
structure Request where
  method : Method
  url : String
  body : Option String
  deriving DecidableEq, Repr

/-- A request under way, and how many redirects led to it. -/
structure Flight where
  request : Request
  followed : ℕ
  deriving DecidableEq, Repr

/-- The default redirect policy follows this many. -/
def MAX_REDIRECTS : ℕ := 10

/-- The request that a redirect asks for. -/
def Request.redirected (req : Request) (resp : Response) : Option Request :=
  resp.location.bind fun url =>
    if resp.status = 301 ∨ resp.status = 302 ∨ resp.status = 303 then some ⟨.get, url, none⟩
    else if resp.status = 307 ∨ resp.status = 308 then some { req with url := url }
    else none

/-- The request that `write_lines` makes for `lines`. -/
def writeRequest (writeUrl lines : String) : Request := ⟨.post, writeUrl, some lines⟩

/-- A request made for a batch, and the status of the answer. -/
structure Exchange where
  batch : ℕ
  request : Request
  status : UInt16
  deriving DecidableEq, Repr

/-- What the writer is built with, and the text of the client's error after too many redirects. -/
structure HttpArgs where
  pipeline : PipelineArgs
  writeUrl : String
  tooManyRedirects : String
  deriving DecidableEq, Repr

/-- The pipeline and the request that is under way. -/
structure HttpPipeline (F : Type) where
  pipe : Pipeline F
  flight : Option Flight
  -- the history
  exchanges : List Exchange
  deriving DecidableEq

/-- The steps of the pipeline, with the answers of the server in the place of results. -/
inductive HttpAction (F : Type)
  | pipe (a : PipelineAction F)
  -- `write_lines` sends its request; the server answers, or the request fails without an answer
  | send
  | respond (resp : Response) (nowUnix : ℕ)
  | fail (message : String) (nowUnix : ℕ)
  deriving DecidableEq

namespace HttpPipeline

variable {F : Type} [F64 F]

def new (capacityBytes : ℕ) : HttpPipeline F := ⟨.new capacityBytes, none, []⟩

/-- `write_lines` returns. -/
def finish (args : HttpArgs) (s : HttpPipeline F) (outcome : Except WriteError Unit) (nowUnix : ℕ) :
    Option (HttpPipeline F) :=
  (s.pipe.step args.pipeline (.answer outcome nowUnix)).map fun pipe =>
    { s with pipe := pipe, flight := none }

/-- The client gets an answer: it follows a redirect, gives up after too many, or hands the answer
to `write_lines`. -/
def respondStep (args : HttpArgs) (s : HttpPipeline F) (flight : Flight) (resp : Response)
    (nowUnix : ℕ) : Option (HttpPipeline F) :=
  match flight.request.redirected resp with
  | some request =>
    if flight.followed < MAX_REDIRECTS then
      some { s with flight := some ⟨request, flight.followed + 1⟩ }
    else s.finish args (.error (.transport args.tooManyRedirects)) nowUnix
  | none => s.finish args (classify resp) nowUnix

/-- One step. -/
def step (args : HttpArgs) (s : HttpPipeline F) : HttpAction F → Option (HttpPipeline F)
  | .pipe (.answer _ _) => none
  | .pipe a => (s.pipe.step args.pipeline a).map fun pipe => { s with pipe := pipe }
  | .send =>
    match s.pipe.writer, s.flight with
    | .writing batch _, none =>
      some { s with flight := some ⟨writeRequest args.writeUrl batch.text, 0⟩ }
    | _, _ => none
  | .respond resp nowUnix =>
    match s.pipe.writer, s.flight with
    | .writing batch _, some flight =>
      let exchange : Exchange := ⟨batch.ptr, flight.request, resp.status⟩
      respondStep args { s with exchanges := s.exchanges ++ [exchange] } flight resp nowUnix
    | _, _ => none
  | .fail message nowUnix =>
    match s.pipe.writer, s.flight with
    | .writing _ _, some _ => s.finish args (.error (.transport message)) nowUnix
    | _, _ => none

/-- A POST of exactly the bytes of `batch` was made for it and answered with a 2xx status. -/
def Posted (s : HttpPipeline F) (batch : Batch) : Prop :=
  ∃ e ∈ s.exchanges, e.batch = batch.ptr ∧ e.request.method = .post ∧
    e.request.body = some batch.text ∧ isSuccess e.status = true

/-- Every batch recorded as written was written. -/
def WrittenWasPosted (s : HttpPipeline F) : Prop :=
  ∀ batch, (batch, Verdict.accepted) ∈ s.pipe.finals → s.Posted batch

/-- The condition under which a success is one: a 2xx answer comes while the request under way is
still the POST, not the GET that a redirect turned it into. -/
def SuccessIsForPost (s : HttpPipeline F) (a : HttpAction F) : Prop :=
  ∀ resp nowUnix flight, a = .respond resp nowUnix → s.flight = some flight →
    isSuccess resp.status = true → flight.request.method = .post

end HttpPipeline

end Huginn.Influx
