import Huginn.Influx.Correct.Accounting
import Huginn.Influx.Http

/-!
# When a batch recorded as written was written

The writer takes the last answer of a redirect chain for the answer to its POST. Runs in which a 2xx
answer only comes while the request under way is still the POST are exactly those at whose end every
batch recorded as written was posted (`HttpPipeline.writtenWasPosted_iff`).
-/

namespace Huginn.Influx

/-- A success is not a redirect. -/
theorem redirected_of_isSuccess {req : Request} {resp : Response}
    (h : isSuccess resp.status = true) : req.redirected resp = none := by
  simp only [isSuccess, Bool.and_eq_true, decide_eq_true_eq] at h
  have hlt : resp.status < 300 := h.2
  have hne : ∀ n : UInt16, 300 ≤ n → resp.status ≠ n := by
    rintro n hn rfl
    exact absurd (UInt16.lt_of_lt_of_le hlt hn) (UInt16.lt_irrefl _)
  have h1 := hne 301 (by decide)
  have h2 := hne 302 (by decide)
  have h3 := hne 303 (by decide)
  have h4 := hne 307 (by decide)
  have h5 := hne 308 (by decide)
  simp [Request.redirected, h1, h2, h3, h4, h5]

/-- `write_lines` reports success exactly for a 2xx status. -/
theorem classify_ok_iff {resp : Response} :
    classify resp = .ok () ↔ isSuccess resp.status = true := by
  unfold classify
  by_cases h : isSuccess resp.status = true
  · simp [h]
  · rw [if_neg h]
    simp only [h]
    split_ifs <;> simp

namespace Pipeline

variable {F : Type} [F64 F] {args : PipelineArgs} {s t : Pipeline F} {a : PipelineAction F}

/-- A step that is no result of `write_lines` adds no final answer. -/
theorem finals_of_not_answer (hne : ∀ outcome now, a ≠ .answer outcome now)
    (h : s.step args a = some t) : t.finals = s.finals := by
  cases step_to h with
  | accepted | rejected | retry => exact absurd rfl (hne _ _)
  | recvOk | recvLagged | recvClosed | timer | enqueueEmpty | enqueue | notifyOne | close
  | notifyWaiters | call | wait | retSome | retNone | pop | sleep | shutdown => rfl

/-- While the writer is in `write_lines`, only its result moves it. -/
theorem writer_of_not_answer {b : Batch} {attempt : UInt32} (hw : s.writer = .writing b attempt)
    (hne : ∀ outcome now, a ≠ .answer outcome now) (h : s.step args a = some t) :
    t.writer = s.writer := by
  cases step_to h with
  | accepted | rejected | retry => exact absurd rfl (hne _ _)
  | retSome _ hw' | retNone hw' | pop _ hw' | sleep _ _ _ hw' | shutdown _ _ _ hw' =>
    exact absurd (hw.symm.trans hw') (by simp)
  | recvOk | recvLagged | recvClosed | timer | enqueueEmpty | enqueue | notifyOne | close
  | notifyWaiters | call | wait => rfl

/-- What a result of `write_lines` adds to the history. -/
theorem finals_of_answer {outcome : Except WriteError Unit} {now : ℕ} {b : Batch}
    {attempt : UInt32} (hw : s.writer = .writing b attempt)
    (h : s.step args (.answer outcome now) = some t) :
    (outcome = .ok () ∧ t.finals = s.finals ++ [(b, .accepted)]) ∨
      (outcome ≠ .ok () ∧ (t.finals = s.finals ++ [(b, .rejected)] ∨ t.finals = s.finals)) := by
  cases step_to h with
  | accepted b' _ _ hw' =>
    obtain ⟨rfl, -⟩ := WriterPc.writing.inj (hw.symm.trans hw')
    exact .inl ⟨rfl, rfl⟩
  | rejected b' _ e _ hw' =>
    obtain ⟨rfl, -⟩ := WriterPc.writing.inj (hw.symm.trans hw')
    exact .inr ⟨by simp, .inl rfl⟩
  | retry => exact .inr ⟨by simp, .inr rfl⟩

end Pipeline

namespace HttpPipeline

variable {F : Type} [F64 F] {args : HttpArgs} {s t : HttpPipeline F} {a : HttpAction F}
  {as : List (HttpAction F)} {cap : ℕ}

/-! ### What a step does -/

/-- What a step can do, by where it was taken. -/
inductive StepTo (args : HttpArgs) (s : HttpPipeline F) : HttpAction F → HttpPipeline F → Prop
  | pipe (a : PipelineAction F) (pipe : Pipeline F) (hne : ∀ outcome now, a ≠ .answer outcome now)
      (hst : s.pipe.step args.pipeline a = some pipe) :
      StepTo args s (.pipe a) { s with pipe := pipe }
  | send (b : Batch) (attempt : UInt32) (hw : s.pipe.writer = .writing b attempt)
      (hf : s.flight = none) :
      StepTo args s .send { s with flight := some ⟨writeRequest args.writeUrl b.text, 0⟩ }
  | follow (b : Batch) (attempt : UInt32) (flight : Flight) (resp : Response) (now : ℕ)
      (request : Request) (hw : s.pipe.writer = .writing b attempt) (hf : s.flight = some flight)
      (hr : flight.request.redirected resp = some request) :
      StepTo args s (.respond resp now) { s with
        exchanges := s.exchanges ++ [⟨b.ptr, flight.request, resp.status⟩]
        flight := some ⟨request, flight.followed + 1⟩ }
  | tooMany (b : Batch) (attempt : UInt32) (flight : Flight) (resp : Response) (now : ℕ)
      (request : Request) (pipe : Pipeline F) (hw : s.pipe.writer = .writing b attempt)
      (hf : s.flight = some flight) (hr : flight.request.redirected resp = some request)
      (hst : s.pipe.step args.pipeline
        (.answer (.error (.transport args.tooManyRedirects)) now) = some pipe) :
      StepTo args s (.respond resp now)
        ⟨pipe, none, s.exchanges ++ [⟨b.ptr, flight.request, resp.status⟩]⟩
  | deliver (b : Batch) (attempt : UInt32) (flight : Flight) (resp : Response) (now : ℕ)
      (pipe : Pipeline F) (hw : s.pipe.writer = .writing b attempt) (hf : s.flight = some flight)
      (hr : flight.request.redirected resp = none)
      (hst : s.pipe.step args.pipeline (.answer (classify resp) now) = some pipe) :
      StepTo args s (.respond resp now)
        ⟨pipe, none, s.exchanges ++ [⟨b.ptr, flight.request, resp.status⟩]⟩
  | fail (b : Batch) (attempt : UInt32) (message : String) (now : ℕ) (pipe : Pipeline F)
      (hw : s.pipe.writer = .writing b attempt)
      (hst : s.pipe.step args.pipeline (.answer (.error (.transport message)) now) = some pipe) :
      StepTo args s (.fail message now) { s with pipe := pipe, flight := none }

/-- **The step lemma.** -/
theorem step_to (h : s.step args a = some t) : StepTo args s a t := by
  cases a with
  | pipe a =>
    have hne : ∀ outcome now, a ≠ .answer outcome now := by
      rintro outcome now rfl
      simp [step] at h
    have hst : (s.pipe.step args.pipeline a).map (fun pipe => { s with pipe }) = some t := by
      cases a <;> first | exact h | exact absurd rfl (hne _ _)
    obtain ⟨pipe, hpipe, rfl⟩ := Option.map_eq_some_iff.mp hst
    exact .pipe a pipe hne hpipe
  | send =>
    simp only [step] at h
    split at h
    · next b attempt hw hf => exact Option.some.inj h ▸ .send b attempt hw hf
    · cases h
  | respond resp now =>
    simp only [step] at h
    split at h
    · next b attempt flight hw hf =>
      simp only [respondStep] at h
      split at h
      · next request hr =>
        split_ifs at h with hlt
        · exact Option.some.inj h ▸ .follow b attempt flight resp now request hw hf hr
        · obtain ⟨pipe, hpipe, rfl⟩ := Option.map_eq_some_iff.mp h
          exact .tooMany b attempt flight resp now request pipe hw hf hr hpipe
      · next hr =>
        obtain ⟨pipe, hpipe, rfl⟩ := Option.map_eq_some_iff.mp h
        exact .deliver b attempt flight resp now pipe hw hf hr hpipe
    · cases h
  | fail message now =>
    simp only [step] at h
    split at h
    · next b attempt flight hw hf =>
      obtain ⟨pipe, hpipe, rfl⟩ := Option.map_eq_some_iff.mp h
      exact .fail b attempt message now pipe hw hpipe
    · cases h

/-! ### The invariant -/

/-- The request under way is made for the batch that the writer holds, and every 2xx answer was the
end of a write. -/
structure Inv (s : HttpPipeline F) : Prop where
  pipe : s.pipe.Inv
  flight : ∀ f, s.flight = some f → ∃ b attempt, s.pipe.writer = .writing b attempt ∧
    (f.request.method = .post → f.request.body = some b.text)
  success : ∀ e ∈ s.exchanges, isSuccess e.status = true → e.batch ∈ s.pipe.answered

omit [F64 F] in
theorem inv_new : Inv (new cap : HttpPipeline F) :=
  ⟨Pipeline.inv_new, by simp [new], by simp [new]⟩

theorem answered_mono {p q : Pipeline F} {a : PipelineAction F} {args : PipelineArgs}
    (h : p.step args a = some q) : p.answered ⊆ q.answered :=
  List.map_subset _ (Pipeline.history_grows h).2.subset

/-- A redirect keeps the body only of a request that stays a POST. -/
theorem redirected_body {req req' : Request} {resp : Response} {text : String}
    (hreq : req.method = .post → req.body = some text) (h : req.redirected resp = some req') :
    req'.method = .post → req'.body = some text := by
  obtain ⟨url, -, h⟩ := Option.bind_eq_some_iff.mp h
  split_ifs at h
  · obtain rfl := Option.some.inj h
    exact fun hpost => absurd hpost (by simp)
  · obtain rfl := Option.some.inj h
    exact hreq

theorem inv_step (hi : s.Inv) (h : s.step args a = some t) : t.Inv := by
  cases step_to h with
  | pipe a pipe hne hst =>
    refine ⟨Pipeline.inv_step hi.pipe hst, fun f hf => ?_, fun e he hs => ?_⟩
    · obtain ⟨b, attempt, hw, hbody⟩ := hi.flight f hf
      exact ⟨b, attempt, (Pipeline.writer_of_not_answer hw hne hst).trans hw, hbody⟩
    · exact answered_mono hst (hi.success e he hs)
  | send b attempt hw hf =>
    refine ⟨hi.pipe, fun f hf => ⟨b, attempt, hw, ?_⟩, hi.success⟩
    obtain rfl := Option.some.inj hf
    exact fun _ => rfl
  | follow b attempt flight resp now request hw hf hr =>
    refine ⟨hi.pipe, fun f hf' => ⟨b, attempt, hw, ?_⟩, fun e he hs => ?_⟩
    · obtain ⟨b', _, hw', hbody⟩ := hi.flight flight hf
      obtain ⟨rfl, -⟩ := WriterPc.writing.inj (hw.symm.trans hw')
      obtain rfl := Option.some.inj hf'
      exact redirected_body hbody hr
    · rcases List.mem_append.mp he with hold | hnew
      · exact hi.success e hold hs
      · -- a redirect is not a success
        obtain rfl := List.mem_singleton.mp hnew
        rw [redirected_of_isSuccess hs] at hr
        cases hr
  | tooMany b attempt flight resp now request pipe hw hf hr hst =>
    refine ⟨Pipeline.inv_step hi.pipe hst, by simp, fun e he hs => ?_⟩
    rcases List.mem_append.mp he with hold | hnew
    · exact answered_mono hst (hi.success e hold hs)
    · obtain rfl := List.mem_singleton.mp hnew
      rw [redirected_of_isSuccess hs] at hr
      cases hr
  | deliver b attempt flight resp now pipe hw hf hr hst =>
    refine ⟨Pipeline.inv_step hi.pipe hst, by simp, fun e he hs => ?_⟩
    rcases List.mem_append.mp he with hold | hnew
    · exact answered_mono hst (hi.success e hold hs)
    · obtain rfl := List.mem_singleton.mp hnew
      rcases Pipeline.finals_of_answer hw hst with ⟨-, hfinals⟩ | ⟨hne, -⟩
      · simp [Pipeline.answered, hfinals]
      · exact absurd (classify_ok_iff.mpr hs) hne
  | fail b attempt message now pipe hw hst =>
    exact ⟨Pipeline.inv_step hi.pipe hst, by simp,
      fun e he hs => answered_mono hst (hi.success e he hs)⟩

/-! ### Success is for the POST -/

omit [F64 F] in
theorem Posted.mono {exchanges : List Exchange} {b : Batch} {pipe pipe' : Pipeline F}
    {flight flight' : Option Flight} (h : Posted ⟨pipe, flight, exchanges⟩ b)
    (more : List Exchange) : Posted ⟨pipe', flight', exchanges ++ more⟩ b := by
  obtain ⟨e, he, hrest⟩ := h
  exact ⟨e, List.mem_append_left _ he, hrest⟩

/-- A failed write records nothing as written. -/
theorem accepted_of_error {p q : Pipeline F} {args : PipelineArgs} {e : WriteError} {now : ℕ}
    {b : Batch} {attempt : UInt32} (hw : p.writer = .writing b attempt)
    (h : p.step args (.answer (.error e) now) = some q) {batch : Batch}
    (hmem : (batch, Verdict.accepted) ∈ q.finals) : (batch, Verdict.accepted) ∈ p.finals := by
  rcases Pipeline.finals_of_answer hw h with ⟨hok, -⟩ | ⟨-, hfinals | hfinals⟩
  · cases hok
  · rw [hfinals] at hmem
    simpa using hmem
  · rwa [hfinals] at hmem

theorem writtenWasPosted_step (hi : s.Inv) (hok : s.SuccessIsForPost a) (hp : s.WrittenWasPosted)
    (h : s.step args a = some t) : t.WrittenWasPosted := by
  intro batch hmem
  cases step_to h with
  | pipe a pipe hne hst =>
    rw [Pipeline.finals_of_not_answer hne hst] at hmem
    exact hp batch hmem
  | send b attempt hw hf => exact hp batch hmem
  | follow b attempt flight resp now request hw hf hr => exact (hp batch hmem).mono _
  | tooMany b attempt flight resp now request pipe hw hf hr hst =>
    exact (hp batch (accepted_of_error hw hst hmem)).mono _
  | fail b attempt message now pipe hw hst => exact hp batch (accepted_of_error hw hst hmem)
  | deliver b attempt flight resp now pipe hw hf hr hst =>
    by_cases hs : isSuccess resp.status = true
    · rw [classify_ok_iff.mpr hs] at hst
      rcases Pipeline.finals_of_answer hw hst with ⟨-, hfinals⟩ | ⟨hne, -⟩
      · rw [hfinals, List.mem_append, List.mem_singleton] at hmem
        rcases hmem with hold | hnew
        · exact (hp batch hold).mono _
        · -- the answer that the condition is about
          obtain ⟨rfl, -⟩ := Prod.mk.inj hnew
          obtain ⟨b', _, hw', hbody⟩ := hi.flight flight hf
          obtain ⟨rfl, -⟩ := WriterPc.writing.inj (hw.symm.trans hw')
          have hpost := hok resp now flight rfl hf hs
          exact ⟨_, List.mem_append_right _ List.mem_cons_self, rfl, hpost, hbody hpost, hs⟩
      · exact absurd rfl hne
    · cases hc : classify resp with
      | ok => exact absurd (classify_ok_iff.mp hc) hs
      | error e =>
        rw [hc] at hst
        exact (hp batch (accepted_of_error hw hst hmem)).mono _

/-- Some batch was recorded as written and was not posted. -/
def Lost (s : HttpPipeline F) : Prop :=
  ∃ batch, (batch, Verdict.accepted) ∈ s.pipe.finals ∧ ¬ s.Posted batch

omit [F64 F] in
/-- Requests are only made for batches without an answer, so a batch that was not posted stays so.
-/
theorem not_posted_append {p : Pipeline F} (hi : p.Inv) {b batch : Batch} {attempt : UInt32}
    (hw : p.writer = .writing b attempt) (hmem : (batch, Verdict.accepted) ∈ p.finals)
    {exchanges : List Exchange} {q q' : Pipeline F} {flight flight' : Option Flight}
    (hnot : ¬ Posted ⟨q, flight, exchanges⟩ batch) (request : Request) (status : UInt16) :
    ¬ Posted ⟨q', flight', exchanges ++ [⟨b.ptr, request, status⟩]⟩ batch := by
  rintro ⟨e, he, hptr, hrest⟩
  rcases List.mem_append.mp he with hold | hnew
  · exact hnot ⟨e, hold, hptr, hrest⟩
  · obtain rfl := List.mem_singleton.mp hnew
    have hbefore := (Pipeline.writing_facts hi hw).2.2 batch.ptr
      (List.mem_map_of_mem (f := fun f : Batch × Verdict => f.1.ptr) hmem)
    exact absurd hptr (Nat.ne_of_gt hbefore)

theorem lost_step (hi : s.Inv) (hl : s.Lost) (h : s.step args a = some t) : t.Lost := by
  obtain ⟨batch, hmem, hnot⟩ := hl
  cases step_to h with
  | pipe a pipe hne hst => exact ⟨batch, (Pipeline.history_grows hst).2.subset hmem, hnot⟩
  | send b attempt hw hf => exact ⟨batch, hmem, hnot⟩
  | follow b attempt flight resp now request hw hf hr =>
    exact ⟨batch, hmem, not_posted_append hi.pipe hw hmem hnot _ _⟩
  | tooMany b attempt flight resp now request pipe hw hf hr hst =>
    exact ⟨batch, (Pipeline.history_grows hst).2.subset hmem,
      not_posted_append hi.pipe hw hmem hnot _ _⟩
  | deliver b attempt flight resp now pipe hw hf hr hst =>
    exact ⟨batch, (Pipeline.history_grows hst).2.subset hmem,
      not_posted_append hi.pipe hw hmem hnot _ _⟩
  | fail b attempt message now pipe hw hst =>
    exact ⟨batch, (Pipeline.history_grows hst).2.subset hmem, hnot⟩

/-- A 2xx answer to anything but the POST records a batch as written that was not posted. -/
theorem lost_of_violation (hi : s.Inv) (hnot : ¬ s.SuccessIsForPost a)
    (h : s.step args a = some t) : t.Lost := by
  simp only [SuccessIsForPost, not_forall] at hnot
  obtain ⟨resp, now, flight, rfl, hf, hs, hmethod⟩ := hnot
  cases step_to h with
  | follow b attempt flight' _ _ request hw hf' hr
  | tooMany b attempt flight' _ _ request _ hw hf' hr =>
    rw [redirected_of_isSuccess hs] at hr
    cases hr
  | deliver b attempt flight' _ _ pipe hw hf' hr hst =>
    obtain rfl := Option.some.inj (hf.symm.trans hf')
    rw [classify_ok_iff.mpr hs] at hst
    rcases Pipeline.finals_of_answer hw hst with ⟨-, hfinals⟩ | ⟨hne, -⟩
    · refine ⟨b, by simp [hfinals], ?_⟩
      rintro ⟨e, he, hptr, hpost, -, hsuccess⟩
      rcases List.mem_append.mp he with hold | hnew
      · -- an earlier success would have been the end of an earlier write
        have hbefore := (Pipeline.writing_facts hi.pipe hw).2.2 e.batch (hi.success e hold hsuccess)
        omega
      · obtain rfl := List.mem_singleton.mp hnew
        exact hmethod hpost
    · exact absurd rfl hne

/-- **A batch recorded as written was written, exactly when success is for the POST.** At the end of
a run, every batch that was recorded as written was sent in a POST of exactly its bytes that was
answered with a 2xx status, if and only if in every step of the run a 2xx answer came while the
request under way was still the POST. -/
theorem writtenWasPosted_iff {F : Type} [F64 F] {args : HttpArgs} {cap : ℕ}
    {as : List (HttpAction F)} {s : HttpPipeline F} (h : FreeRun (step args) (new cap) as s) :
    s.WrittenWasPosted ↔ Run (step args) SuccessIsForPost (new cap) as s := by
  refine FreeRun.holds_iff_run (L := Lost) h inv_new (fun _ _ _ hi hst => inv_step hi hst)
    (fun hrun => ?_) (fun _ _ _ hi hnot hst => lost_of_violation hi hnot hst)
    (fun _ _ _ hi hl hst => lost_step hi hl hst) ?_
  · exact hrun.invariant_under inv_new (fun _ _ _ hi _ hst => inv_step hi hst)
      (by simp [WrittenWasPosted, new, Pipeline.new])
      fun _ _ _ hi hp hok hst => writtenWasPosted_step hi hok hp hst
  · rintro - ⟨batch, hmem, hnot⟩ hwritten
    exact hnot (hwritten batch hmem)

/-- An endpoint to write to. -/
def sampleHttpArgs : HttpArgs :=
  ⟨Pipeline.sampleArgs, "http://influx:8086/api/v2/write", "error following redirect"⟩

/-- The server answers the POST with `status`, and with a `Location` if there is one. -/
def answerWith (status : UInt16) (location : Option String) : HttpAction Decimal :=
  .respond ⟨status, none, location, none⟩ 0

/-- One batch is on its way. -/
def sendOne : List (HttpAction Decimal) :=
  [.pipe (.recv (.ok sampleResult)), .pipe .enqueue, .pipe .notifyOne, .pipe .call, .pipe .wait,
    .pipe .ret, .send]

theorem writtenWasPosted_iff_noContent :
    ∃ s, FreeRun (step sampleHttpArgs) (new 1024) (sendOne ++ [answerWith 204 none]) s ∧
      (s.WrittenWasPosted ↔ Run (step sampleHttpArgs) SuccessIsForPost (new 1024)
        (sendOne ++ [answerWith 204 none]) s) := by
  obtain ⟨s, hs⟩ : ∃ s, runActions (step sampleHttpArgs) (fun _ _ => True) (new 1024)
      (sendOne ++ [answerWith 204 none]) = some s := ⟨_, rfl⟩
  have hrun := run_of_runActions _ hs
  exact ⟨s, hrun, writtenWasPosted_iff hrun⟩

/-- The POST is answered with a redirect to a page, and the GET of the page with 200. -/
theorem written_after_redirect :
    ¬ ∀ as s, FreeRun (step sampleHttpArgs) (new 1024 : HttpPipeline Decimal) as s →
      s.WrittenWasPosted := by
  intro h
  obtain ⟨s, hs⟩ : ∃ s, runActions (step sampleHttpArgs) (fun _ _ => True) (new 1024)
      (sendOne ++ [answerWith 302 (some "http://influx:8086/signin"), answerWith 200 none]) =
      some s := ⟨_, rfl⟩
  have hend : s.exchanges.map (fun e => (e.request.method, e.status)) =
      [(.post, 302), (.get, 200)] ∧
      s.pipe.finals.map Prod.snd = [.accepted] := by
    obtain rfl := Option.some.inj hs
    exact ⟨rfl, rfl⟩
  obtain ⟨⟨batch, verdict⟩, hmem, rfl⟩ : ∃ f ∈ s.pipe.finals, f.2 = .accepted := by
    rw [← List.mem_map, hend.2]
    exact List.mem_singleton.mpr rfl
  obtain ⟨e, he, -, hpost, -, hs'⟩ := h _ s (run_of_runActions _ hs) batch hmem
  have hpair : (e.request.method, e.status) ∈ [(Method.post, (302 : UInt16)), (.get, 200)] := by
    rw [← hend.1]
    exact List.mem_map_of_mem (f := fun e : Exchange => (e.request.method, e.status)) he
  rw [List.mem_cons, List.mem_singleton, Prod.mk.injEq, Prod.mk.injEq, hpost] at hpair
  rcases hpair with ⟨-, hstatus⟩ | ⟨hmethod, -⟩
  · rw [hstatus] at hs'
    exact absurd hs' (by decide)
  · cases hmethod

end HttpPipeline

end Huginn.Influx
