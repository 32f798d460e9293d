import Huginn.Core.Correct.Load
import Huginn.Probes.Correct.Greeting
import Huginn.Probes.Healthy

/-!
# The verdict of a probe

A probe says that its target is up exactly when it is, or when it is a UDP service that is overdue
(`execute_judges`). What a target has to do for that is said without the probe, so here are the
arguments that the probe sees it: that the greeting line which is read has the same beginning as the
bytes that arrive (`greets_iff`), and that the query which is sent is one that a server understands
(`sendQuery_ok_iff`). A result that is not up says why. And the days until a certificate expires are
there whenever there is a certificate, whatever the verdict on it (`TlsProbe.judges`).
-/

namespace Huginn.Probes

open Future

/-! ### Operations that succeed -/

section Succeeds

variable {α β : Type} {op : Attempt α} {t u : ℕ} {a b : α}

theorem Succeeds.unique (h : Succeeds op t a) (h' : Succeeds op u b) : t = u ∧ a = b := by
  have heq : Future.ready t (Except.ok a : Except String α) = .ready u (.ok b) := h.symm.trans h'
  obtain ⟨rfl, hab⟩ := Future.ready.inj heq
  exact ⟨rfl, Except.ok.inj hab⟩

/-- Two operations, one after the other. -/
theorem succeeds_bind_iff {f : α → Attempt β} {c : β} :
    Succeeds (op >>= f) t c ↔ ∃ u v a, Succeeds op u a ∧ Succeeds (f a) v c ∧ u + v = t := by
  unfold Succeeds
  rw [ExceptT.run_bind]
  cases hop : op.run with
  | never =>
    refine iff_of_false (fun h => ?_) ?_
    · cases h
    · rintro ⟨u, v, a, h, -⟩
      cases h
  | ready u outcome =>
    rw [bind_ready]
    cases outcome with
    | error e =>
      refine iff_of_false (fun h => ?_) ?_
      · cases h
      · rintro ⟨u, v, a, h, -⟩
        cases h
    | ok a =>
      show (f a).run.delay u = _ ↔ _
      constructor
      · intro h
        cases hf : (f a).run with
        | never =>
          rw [hf] at h
          cases h
        | ready v c' =>
          rw [hf, delay_ready] at h
          obtain ⟨hsum, rfl⟩ := Future.ready.inj h
          exact ⟨u, v, a, rfl, hf, hsum⟩
      · rintro ⟨u', v, a', hua, hf, rfl⟩
        obtain ⟨rfl, hok⟩ := Future.ready.inj hua
        obtain rfl := Except.ok.inj hok
        rw [hf, delay_ready]

theorem not_succeeds_throw (e : String) : ¬ Succeeds (throw e : Attempt α) t a := by
  intro h
  cases h

theorem succeeds_pure_iff : Succeeds (pure b : Attempt α) t a ↔ t = 0 ∧ b = a := by
  constructor
  · intro h
    have heq : Future.ready 0 (Except.ok b : Except String α) = .ready t (.ok a) := h
    obtain ⟨rfl, hab⟩ := Future.ready.inj heq
    exact ⟨rfl, Except.ok.inj hab⟩
  · rintro ⟨rfl, rfl⟩
    rfl

/-- Waiting for an operation, and then a result. -/
theorem wait_then {F : Type} {duration : Duration} {msg : String}
    {f : Except String α → Future (ProbeResult F)} {r : ProbeResult F}
    (h : (withProbeTimeout duration msg op >>= f) = ready t r) :
    (∃ u ≤ duration.asMillis, ∃ a v, Succeeds op u a ∧ f (.ok a) = ready v r) ∨
    ((∀ u a, Succeeds op u a → duration.asMillis < u) ∧ ∃ e v, f (.error e) = ready v r) := by
  have hf : ∀ {u} {outcome : Except String α}, (ready u outcome >>= f) = ready t r →
      ∃ v, f outcome = ready v r := by
    intro u outcome hready
    rw [bind_ready] at hready
    cases hres : f outcome with
    | never =>
      rw [hres] at hready
      cases hready
    | ready v r' =>
      rw [hres, delay_ready] at hready
      obtain ⟨-, rfl⟩ := Future.ready.inj hready
      exact ⟨v, rfl⟩
  by_cases hlate : ∀ u outcome, op.run = ready u outcome → duration.asMillis < u
  · rw [withProbeTimeout_of_late hlate] at h
    obtain ⟨v, hv⟩ := hf h
    exact .inr ⟨fun u a hsucc => hlate u _ hsucc, _, v, hv⟩
  · push Not at hlate
    obtain ⟨u, outcome, hop, hle⟩ := hlate
    rw [withProbeTimeout_of_le hop hle] at h
    obtain ⟨v, hv⟩ := hf h
    cases outcome with
    | ok a => exact .inl ⟨u, hle, a, v, hop, hv⟩
    | error e =>
      refine .inr ⟨fun u' a hsucc => ?_, e, v, hv⟩
      have heq : Future.ready u (Except.error e : Except String α) = .ready u' (.ok a) :=
        hop.symm.trans hsucc
      cases heq

end Succeeds

/-! ### What a result says -/

variable {F : Type} {w : World F} {cfg : ProbeConfig F} {r : ProbeResult F} {t : ℕ}

/-- A result is up exactly when the target is, and otherwise has an error. -/
structure Judges (r : ProbeResult F) (healthy : Prop) : Prop where
  up : r.up = true ↔ healthy
  error : r.error = none ↔ r.up = true

theorem judges_up {healthy : Prop} (h : healthy) (probeType : String) (statusCode : Option UInt16) :
    Judges (up w cfg probeType statusCode) healthy :=
  ⟨iff_of_true rfl h, iff_of_true rfl rfl⟩

theorem judges_failure {healthy : Prop} (h : ¬ healthy) (now : DateTime) (probeType : String)
    (ms : F) (message : String) :
    Judges (.failure now cfg.name probeType cfg.target ms message) healthy :=
  ⟨iff_of_false Bool.false_ne_true h, iff_of_false (Option.some_ne_none _) Bool.false_ne_true⟩

theorem Judges.withMetric {healthy : Prop} (h : Judges r healthy) (key : String) (value : F) :
    Judges (r.withMetric key value) healthy := ⟨h.up, h.error⟩

/-- What was computed at once. -/
theorem eq_of_pure {r' : ProbeResult F} (h : (pure r' : Future (ProbeResult F)) = ready t r) :
    r' = r := (Future.ready.inj h).2

/-! ### The executors -/

theorem Tcp.judges (h : Tcp.probe w cfg = ready t r) : Judges r (Tcp.Healthy w cfg) := by
  rcases wait_then h with ⟨u, hu, a, v, hsucc, hr⟩ | ⟨hlate, e, v, hr⟩
  · rw [← eq_of_pure hr]
    exact judges_up ⟨u, hu, hsucc⟩ _ _
  · rw [← eq_of_pure hr]
    refine judges_failure ?_ _ _ _ _
    rintro ⟨u, hu, hsucc⟩
    exact absurd hu (Nat.not_le.mpr (hlate u _ hsucc))

/-! ### Greetings -/

section Greeting

variable {finish : Attempt Unit} {collected bytes : List UInt8} {chunks : List (Future Chunk)}

/-- Where the loop may stop, with what it has collected before: a line ending or the limit has come,
or nothing more will. -/
def StopsAt (finish : Attempt Unit) (collected : List UInt8) (chunks : List (Future Chunk))
    (millis : ℕ) (bytes : List UInt8) : Prop :=
  (GreetingDone (collected ++ bytes) ∧ ∃ rest, Arrives chunks millis bytes rest) ∨
    ∃ u v, Arrives chunks u bytes [] ∧ Succeeds finish v () ∧ u + v = millis

theorem stopsAt_nil_iff (hnot : ¬ GreetingDone collected) :
    StopsAt finish collected [] t bytes ↔ bytes = [] ∧ Succeeds finish t () := by
  constructor
  · rintro (⟨hdone, rest, harrives⟩ | ⟨u, v, harrives, hfinish, rfl⟩)
    · cases harrives
      rw [List.append_nil] at hdone
      exact absurd hdone hnot
    · cases harrives
      rw [Nat.zero_add]
      exact ⟨rfl, hfinish⟩
  · rintro ⟨rfl, hfinish⟩
    exact .inr ⟨0, t, .nil [], hfinish, Nat.zero_add t⟩

/-- One more chunk. -/
theorem stopsAt_cons_iff (hnot : ¬ GreetingDone collected) {read : Future Chunk} :
    StopsAt finish collected (read :: chunks) t bytes ↔
      ∃ u v chunk more, read = .ready u chunk ∧
        StopsAt finish (collected ++ chunk.bytes) chunks v more ∧ u + v = t ∧
          chunk.bytes ++ more = bytes := by
  constructor
  · rintro (⟨hdone, rest, harrives⟩ | ⟨u, v, harrives, hfinish, rfl⟩)
    · cases harrives with
      | nil =>
        rw [List.append_nil] at hdone
        exact absurd hdone hnot
      | cons harrives =>
        rw [← List.append_assoc] at hdone
        exact ⟨_, _, _, _, rfl, .inl ⟨hdone, rest, harrives⟩, rfl, rfl⟩
    · cases harrives with
      | cons harrives =>
        exact ⟨_, _, _, _, rfl, .inr ⟨_, v, harrives, hfinish, rfl⟩,
          (Nat.add_assoc _ _ _).symm, rfl⟩
  · rintro ⟨u, v, chunk, more, rfl, hstops, rfl, rfl⟩
    rcases hstops with ⟨hdone, rest, harrives⟩ | ⟨v, v', harrives, hfinish, rfl⟩
    · rw [List.append_assoc] at hdone
      exact .inl ⟨hdone, rest, harrives.cons⟩
    · exact .inr ⟨u + v, v', harrives.cons, hfinish, Nat.add_assoc _ _ _⟩

/-- The loop stops where it may. -/
theorem stopsAt_of_succeeds (hnot : ¬ GreetingDone collected) {line : String}
    (h : Succeeds (readGreeting finish collected chunks) t line) :
    ∃ bytes, StopsAt finish collected chunks t bytes ∧
      greetingText (collected ++ bytes) = line := by
  induction chunks generalizing collected t with
  | nil =>
    rw [readGreeting, succeeds_bind_iff] at h
    obtain ⟨u, v, _, hfinish, hpure, rfl⟩ := h
    obtain ⟨rfl, rfl⟩ := succeeds_pure_iff.mp hpure
    exact ⟨[], (stopsAt_nil_iff hnot).mpr ⟨rfl, hfinish⟩, by rw [List.append_nil]⟩
  | cons read chunks ih =>
    cases read with
    | never => cases h
    | ready u chunk =>
      rw [Succeeds, run_readGreeting_cons] at h
      by_cases hdone : GreetingDone (collected ++ chunk.bytes)
      · rw [if_pos hdone, delay_ready] at h
        obtain ⟨rfl, hline⟩ := Future.ready.inj h
        refine ⟨chunk.bytes, ?_, Except.ok.inj hline⟩
        refine (stopsAt_cons_iff hnot).mpr ⟨u, 0, chunk, [], rfl, ?_, rfl, List.append_nil _⟩
        rw [StopsAt, List.append_nil]
        exact .inl ⟨hdone, chunks, .nil chunks⟩
      · rw [if_neg hdone] at h
        obtain ⟨v, hv, rfl⟩ : ∃ v, Succeeds (readGreeting finish (collected ++ chunk.bytes) chunks)
            v line ∧ u + v = t := by
          cases hrun : (readGreeting finish (collected ++ chunk.bytes) chunks).run with
          | never =>
            rw [hrun] at h
            cases h
          | ready v outcome =>
            rw [hrun, delay_ready] at h
            obtain ⟨rfl, rfl⟩ := Future.ready.inj h
            exact ⟨v, hrun, rfl⟩
        obtain ⟨more, hstops, rfl⟩ := ih hdone hv
        exact ⟨chunk.bytes ++ more, (stopsAt_cons_iff hnot).mpr
          ⟨u, v, chunk, more, rfl, hstops, rfl, rfl⟩, by rw [List.append_assoc]⟩

/-- Where the loop may stop, it has stopped: with all of it, or earlier. -/
theorem exists_succeeds_of_stopsAt (hnot : ¬ GreetingDone collected)
    (h : StopsAt finish collected chunks t bytes) : ∃ u ≤ t, ∃ part,
      Succeeds (readGreeting finish collected chunks) u (greetingText (collected ++ part)) ∧
        part <+: bytes ∧ (GreetingDone (collected ++ part) ∨ part = bytes) := by
  induction chunks generalizing collected t bytes with
  | nil =>
    obtain ⟨rfl, hfinish⟩ := (stopsAt_nil_iff hnot).mp h
    refine ⟨t, le_rfl, [], ?_, List.prefix_rfl, .inr rfl⟩
    rw [readGreeting, succeeds_bind_iff, List.append_nil]
    exact ⟨t, 0, (), hfinish, succeeds_pure_iff.mpr ⟨rfl, rfl⟩, rfl⟩
  | cons read chunks ih =>
    obtain ⟨u, v, chunk, more, rfl, hstops, rfl, rfl⟩ := (stopsAt_cons_iff hnot).mp h
    by_cases hdone : GreetingDone (collected ++ chunk.bytes)
    · refine ⟨u, Nat.le_add_right u v, chunk.bytes, ?_, List.prefix_append _ _, .inl hdone⟩
      rw [Succeeds, run_readGreeting_cons, if_pos hdone, delay_ready]
      rfl
    · obtain ⟨v', hv', part, hsucc, hpart, hstop⟩ := ih hdone hstops
      refine ⟨u + v', Nat.add_le_add_left hv' u, chunk.bytes ++ part, ?_,
        (List.prefix_append_right_inj _).mpr hpart, ?_⟩
      · have hrun : (readGreeting finish (collected ++ chunk.bytes) chunks).run =
            .ready v' (.ok (greetingText (collected ++ chunk.bytes ++ part))) := hsucc
        rw [Succeeds, run_readGreeting_cons, if_neg hdone, hrun, delay_ready, List.append_assoc]
      · rw [← List.append_assoc]
        exact hstop.imp_right fun heq => by rw [heq]

/-- A greeting is where the loop may stop. -/
theorem greeting_iff_stopsAt {stream : Stream} :
    Greeting stream t bytes ↔ StopsAt stream.finish [] stream.chunks t bytes := by
  constructor
  · rintro (⟨harrives, hline⟩ | ⟨harrives, hlong⟩ | ⟨harrives, hfinish⟩)
    · exact .inl ⟨.inl hline, _, harrives⟩
    · exact .inl ⟨.inr hlong, _, harrives⟩
    · exact .inr ⟨_, _, harrives, hfinish, rfl⟩
  · rintro (⟨hline | hlong, rest, harrives⟩ | ⟨u, v, harrives, hfinish, rfl⟩)
    · exact .line harrives hline
    · exact .long harrives hlong
    · exact .closed harrives hfinish

end Greeting

/-- The target greets as expected exactly when the probe reads a line in time that begins so. -/
theorem greets_iff {expected : String} (hexpected : Beginning expected) :
    Greets w cfg expected ↔ ∃ t ≤ cfg.timeout.asMillis, ∃ line,
      Succeeds (do w.connect cfg.target; readGreetingLine w.stream) t line ∧
        startsWith line expected = true := by
  constructor
  · rintro ⟨t, u, bytes, hle, hconnect, hgreeting, hpre⟩
    obtain ⟨u', hu', part, hline, hpart, hstop⟩ :=
      exists_succeeds_of_stopsAt Cut.not_done_nil (greeting_iff_stopsAt.mp hgreeting)
    rw [List.nil_append] at hline hstop
    refine ⟨t + u', by omega, _, succeeds_bind_iff.mpr ⟨t, u', (), hconnect, hline, rfl⟩, ?_⟩
    exact (hexpected.startsWith_iff part).mpr (hexpected.prefix_of_stopped hpart hstop hpre)
  · rintro ⟨t, hle, line, hsucc, hstarts⟩
    obtain ⟨u, v, _, hconnect, hline, rfl⟩ := succeeds_bind_iff.mp hsucc
    obtain ⟨bytes, hstops, rfl⟩ := stopsAt_of_succeeds Cut.not_done_nil hline
    exact ⟨u, v, bytes, hle, hconnect, greeting_iff_stopsAt.mpr hstops,
      (hexpected.startsWith_iff bytes).mp hstarts⟩

theorem greetingProbe_judges {probeType expected emptyMessage unexpected : String}
    (hexpected : Beginning expected)
    (h : greetingProbe probeType expected emptyMessage unexpected w cfg = ready t r) :
    Judges r (Greets w cfg expected) := by
  rcases wait_then h with ⟨u, hu, line, v, hsucc, hr⟩ | ⟨hlate, e, v, hr⟩
  · dsimp only at hr
    by_cases hstarts : startsWith line expected = true
    · rw [if_pos hstarts] at hr
      rw [← eq_of_pure hr]
      exact judges_up ((greets_iff hexpected).mpr ⟨u, hu, line, hsucc, hstarts⟩) _ _
    · have hnot : ¬ Greets w cfg expected := by
        rw [greets_iff hexpected]
        rintro ⟨u', -, line', hsucc', hstarts'⟩
        obtain ⟨-, rfl⟩ := hsucc.unique hsucc'
        exact hstarts hstarts'
      rw [if_neg hstarts] at hr
      split_ifs at hr
      · rw [← eq_of_pure hr]
        exact judges_failure hnot _ _ _ _
      · rw [← eq_of_pure hr]
        exact judges_failure hnot _ _ _ _
  · rw [← eq_of_pure hr]
    refine judges_failure ?_ _ _ _ _
    rw [greets_iff hexpected]
    rintro ⟨u, hu, line, hsucc, -⟩
    exact absurd hu (Nat.not_le.mpr (hlate u _ hsucc))

/-- The query is sent in three steps. -/
theorem sendQuery_ok_iff {addr : IpAddr} : sendQuery w addr = .ok () ↔
    w.bind (if addr.isIpv6 then "[::]:0" else "0.0.0.0:0") = .ok () ∧ w.udpConnect addr = .ok () ∧
      w.udpSend rootQuery = .ok () := by
  unfold sendQuery
  simp only [bind_eq_ok_iff]
  constructor
  · rintro ⟨_, hbind, _, hconnect, hsend⟩
    exact ⟨hbind, hconnect, hsend⟩
  · rintro ⟨hbind, hconnect, hsend⟩
    exact ⟨(), hbind, (), hconnect, hsend⟩

/-- A UDP probe gives each of its two waits the whole time. -/
def Udp.EachInTime (w : World F) (cfg : ProbeConfig F) : Prop :=
  ∃ t u, (t ≤ cfg.timeout.asMillis ∧ u ≤ cfg.timeout.asMillis) ∧ Udp.Answers w cfg t u

/-- Answers that come in time, and those that come too late. -/
theorem Udp.eachInTime_iff (htype : cfg.probeType = .udp) :
    Udp.EachInTime w cfg ↔ Udp.Healthy w cfg ∨ Overdue w cfg := by
  constructor
  · rintro ⟨t, u, hle, hanswers⟩
    by_cases hsum : t + u ≤ cfg.timeout.asMillis
    · exact .inl ⟨t, u, hsum, hanswers⟩
    · exact .inr ⟨htype, t, u, Nat.lt_of_not_le hsum, hle, hanswers⟩
  · rintro (⟨t, u, hsum, hanswers⟩ | ⟨-, t, u, -, hle, hanswers⟩)
    · exact ⟨t, u, ⟨by omega, by omega⟩, hanswers⟩
    · exact ⟨t, u, hle, hanswers⟩

theorem Udp.judges (h : Udp.probe w cfg = ready t r) : Judges r (Udp.EachInTime w cfg) := by
  rcases wait_then h with ⟨u, hu, addrs, v, hsucc, hr⟩ | ⟨hlate, e, v, hr⟩
  · cases addrs with
    | nil =>
      rw [← eq_of_pure hr]
      refine judges_failure ?_ _ _ _ _
      rintro ⟨u', v', -, addr, addrs, n, hsucc', -⟩
      cases (hsucc.unique hsucc').2
    | cons addr addrs =>
      have hfirst : ∀ {u' addr' addrs'}, Succeeds (w.lookupHost cfg.target) u' (addr' :: addrs') →
          addr' = addr := fun hsucc' => (List.cons.inj (hsucc.unique hsucc').2).1.symm
      dsimp only at hr
      cases hsend : sendQuery w addr with
      | error msg =>
        rw [hsend] at hr
        rw [← eq_of_pure hr]
        refine judges_failure ?_ _ _ _ _
        rintro ⟨u', v', -, addr', addrs', n, hsucc', hbind, hconnect, hsent, -⟩
        have hsend' := sendQuery_ok_iff.mpr ⟨hbind, hconnect, hsent⟩
        rw [hfirst hsucc', hsend] at hsend'
        cases hsend'
      | ok =>
        rw [hsend] at hr
        obtain ⟨hbind, hconnect, hsent⟩ := sendQuery_ok_iff.mp hsend
        rcases wait_then hr with ⟨u', hu', n, v', hrecv, hr'⟩ | ⟨hlate, e, v', hr'⟩
        · dsimp only at hr'
          by_cases hn : 0 < n
          · rw [if_pos hn] at hr'
            rw [← eq_of_pure hr']
            exact judges_up ⟨u, u', ⟨hu, hu'⟩, addr, addrs, n, hsucc, hbind, hconnect, hsent, hrecv,
              hn⟩ _ _
          · rw [if_neg hn] at hr'
            rw [← eq_of_pure hr']
            refine judges_failure ?_ _ _ _ _
            rintro ⟨u'', v'', -, addr', addrs', n', -, -, -, -, hrecv', hn'⟩
            obtain ⟨-, rfl⟩ := hrecv.unique hrecv'
            exact hn hn'
        · rw [← eq_of_pure hr']
          refine judges_failure ?_ _ _ _ _
          rintro ⟨u'', u', ⟨-, hu'⟩, addr', addrs', n, -, -, -, -, hrecv, -⟩
          exact absurd hu' (Nat.not_le.mpr (hlate u' _ hrecv))
  · rw [← eq_of_pure hr]
    refine judges_failure ?_ _ _ _ _
    rintro ⟨u, v, ⟨hu, -⟩, addr, addrs, n, hsucc, -⟩
    exact absurd hu (Nat.not_le.mpr (hlate u _ hsucc))

theorem Dns.judges_verdict (resolved : List IpAddr) : Judges (Dns.verdict w cfg resolved)
    (∀ expected ∈ cfg.dnsExpectedIp, ∃ ip ∈ resolved, IpAddr.parse expected = some ip) := by
  unfold Dns.verdict
  cases hexpected : cfg.dnsExpectedIp with
  | none =>
    refine judges_up ?_ _ _
    intro expected hmem
    cases hmem
  | some expected =>
    have hiff : (∀ e ∈ some expected, ∃ ip ∈ resolved, IpAddr.parse e = some ip) ↔
        ∃ ip ∈ resolved, IpAddr.parse expected = some ip := by
      simp
    rw [hiff]
    dsimp only
    cases hparse : IpAddr.parse expected with
    | none =>
      refine judges_failure ?_ _ _ _ _
      rintro ⟨ip, -, hip⟩
      cases hip
    | some expectedIp =>
      show Judges (if _ then _ else _) _
      split_ifs with hmem
      · exact judges_up ⟨expectedIp, hmem, rfl⟩ _ _
      · refine judges_failure ?_ _ _ _ _
        rintro ⟨ip, hip, heq⟩
        exact hmem (Option.some.inj heq ▸ hip)

variable [F64 F]

theorem HttpProbe.judges (h : HttpProbe.probe w cfg = ready t r) :
    Judges r (HttpProbe.Healthy w cfg) := by
  unfold HttpProbe.probe at h
  cases hclient : w.httpClient with
  | error e =>
    rw [hclient] at h
    rw [← eq_of_pure h]
    refine judges_failure ?_ _ _ _ _
    rintro ⟨hok, -⟩
    rw [hclient] at hok
    cases hok
  | ok =>
    rw [hclient] at h
    rcases wait_then h with ⟨u, hu, status, v, hsucc, hr⟩ | ⟨hlate, e, v, hr⟩
    · dsimp only at hr
      by_cases hstatus : status = cfg.expectedStatus.getD 200
      · rw [if_pos hstatus] at hr
        rw [← eq_of_pure hr]
        exact judges_up ⟨hclient, u, hu, hstatus ▸ hsucc⟩ _ _
      · rw [if_neg hstatus] at hr
        rw [← eq_of_pure hr]
        refine judges_failure ?_ _ _ _ _
        rintro ⟨-, u', -, hsucc'⟩
        exact hstatus (hsucc.unique hsucc').2
    · rw [← eq_of_pure hr]
      refine judges_failure ?_ _ _ _ _
      rintro ⟨-, u, hu, hsucc⟩
      exact absurd hu (Nat.not_le.mpr (hlate u _ hsucc))

theorem Dns.judges (h : Dns.probe w cfg = ready t r) : Judges r (Dns.Healthy w cfg) := by
  unfold Dns.probe at h
  cases hparse : SocketAddr.parse cfg.target with
  | none =>
    rw [hparse] at h
    rw [← eq_of_pure h]
    refine judges_failure ?_ _ _ _ _
    rintro ⟨nameserver, hsome, -⟩
    rw [hparse] at hsome
    cases hsome
  | some nameserver =>
    rw [hparse] at h
    dsimp only at h
    cases hbuild : w.buildResolver nameserver with
    | error e =>
      rw [hbuild] at h
      rw [← eq_of_pure h]
      refine judges_failure ?_ _ _ _ _
      rintro ⟨nameserver', hsome, hok, -⟩
      obtain rfl := Option.some.inj (hparse.symm.trans hsome)
      rw [hbuild] at hok
      cases hok
    | ok =>
      rw [hbuild] at h
      rcases wait_then h with ⟨u, hu, resolved, v, hsucc, hr⟩ | ⟨hlate, e, v, hr⟩
      · have hjudges : Judges (Dns.verdict w cfg resolved) _ := Dns.judges_verdict resolved
        obtain ⟨hup, herror⟩ := hjudges
        rw [← eq_of_pure hr]
        refine ⟨hup.trans ⟨fun hall => ?_, ?_⟩, herror⟩
        · exact ⟨nameserver, hparse, hbuild, u, hu, resolved, hsucc, hall⟩
        · rintro ⟨nameserver', -, -, u', -, resolved', hsucc', hall⟩
          obtain ⟨-, rfl⟩ := hsucc.unique hsucc'
          exact hall
      · rw [← eq_of_pure hr]
        refine judges_failure ?_ _ _ _ _
        rintro ⟨nameserver', -, -, u, hu, resolved, hsucc, -⟩
        exact absurd hu (Nat.not_le.mpr (hlate u _ hsucc))

/-! ### tls -/

omit [F64 F] in
/-- The certificate is fetched exactly when the target presents it. -/
theorem succeeds_fetchPeerCertificate_iff {leaf : List UInt8} :
    Succeeds (fetchPeerCertificate w cfg.target) t leaf ↔ Presents w cfg t leaf := by
  unfold fetchPeerCertificate Presents
  cases hsplit : splitHostPort cfg.target with
  | none =>
    refine iff_of_false (not_succeeds_throw _) ?_
    rintro ⟨host, port, hsome, -⟩
    cases hsome
  | some parts =>
    obtain ⟨host, port⟩ := parts
    dsimp only
    by_cases hname : w.isServerName host = true
    · rw [if_pos hname]
      constructor
      · intro h
        obtain ⟨u, v, _, hconnect, hrest, rfl⟩ := succeeds_bind_iff.mp h
        obtain ⟨v, z, presented, hhandshake, hleaf, rfl⟩ := succeeds_bind_iff.mp hrest
        cases presented with
        | none => exact absurd hleaf (not_succeeds_throw _)
        | some leaf' =>
          obtain ⟨rfl, rfl⟩ := succeeds_pure_iff.mp hleaf
          exact ⟨host, port, rfl, hname, u, v, by omega, hconnect, hhandshake⟩
      · rintro ⟨host', port', hsome, -, u, v, rfl, hconnect, hhandshake⟩
        refine succeeds_bind_iff.mpr ⟨u, v, (), hconnect, ?_, rfl⟩
        exact succeeds_bind_iff.mpr
          ⟨v, 0, some leaf, hhandshake, succeeds_pure_iff.mpr ⟨rfl, rfl⟩, Nat.add_zero _⟩
    · rw [if_neg hname]
      refine iff_of_false (fun h => ?_) ?_
      · obtain ⟨u, v, _, hthrow, -⟩ := succeeds_bind_iff.mp h
        exact not_succeeds_throw _ hthrow
      · rintro ⟨host', port', hsome, hname', -⟩
        obtain ⟨rfl, -⟩ := Prod.mk.inj (Option.some.inj hsome)
        exact hname hname'

/-- The days that are left by a certificate. -/
theorem certExpiryDays_eq_ok_iff {leaf : List UInt8} {days : F} :
    certExpiryDays w leaf = .ok days ↔ ∃ notAfter, w.notAfter leaf = .ok notAfter ∧
      days = F64.div (F64.ofInt (notAfter - w.judgedAt.timestamp)) (F64.ofInt 86400) := by
  unfold certExpiryDays
  cases w.notAfter leaf with
  | error e => exact iff_of_false (fun h => by cases h) (by rintro ⟨_, h, -⟩; cases h)
  | ok notAfter =>
    constructor
    · intro h
      exact ⟨notAfter, rfl, (Except.ok.inj h).symm⟩
    · rintro ⟨_, h, rfl⟩
      obtain rfl := Except.ok.inj h
      rfl

theorem expiryVerdict_eq_none_iff {days threshold : F} :
    expiryVerdict days threshold = none ↔
      F64.lt days (F64.ofInt 0) = false ∧ F64.lt days threshold = false := by
  unfold expiryVerdict
  split_ifs with hexpired hsoon
  · exact iff_of_false not_false fun h => absurd (hexpired.symm.trans h.1) (by decide)
  · exact iff_of_false not_false fun h => absurd (hsoon.symm.trans h.2) (by decide)
  · exact iff_of_true rfl ⟨Bool.eq_false_iff.mpr hexpired, Bool.eq_false_iff.mpr hsoon⟩

/-- There is one number of days. -/
theorem DaysLeft.unique {days days' : F} (h : DaysLeft w cfg days) (h' : DaysLeft w cfg days') :
    days = days' := by
  obtain ⟨-, t, -, leaf, notAfter, hleaf, hnotAfter, rfl⟩ := h
  obtain ⟨-, t', -, leaf', notAfter', hleaf', hnotAfter', rfl⟩ := h'
  obtain ⟨-, rfl⟩ := Succeeds.unique (succeeds_fetchPeerCertificate_iff.mpr hleaf)
    (succeeds_fetchPeerCertificate_iff.mpr hleaf')
  obtain rfl := Except.ok.inj (hnotAfter.symm.trans hnotAfter')
  rfl

/-- What a result of a TLS probe says, and the days that it has. -/
structure TlsJudges (w : World F) (cfg : ProbeConfig F) (r : ProbeResult F) : Prop where
  judges : Judges r (TlsProbe.Healthy w cfg)
  days : ∀ days, DaysLeft w cfg days → r.metrics = BTreeMap.empty.insert TLS_CERT_EXPIRY_DAYS days
  none : (∀ days, ¬ DaysLeft w cfg days) → r.metrics = .empty

theorem tlsJudges_failure (h : ∀ days, ¬ DaysLeft w cfg days) (probeType : String) (ms : F)
    (message : String) :
    TlsJudges w cfg (.failure w.now cfg.name probeType cfg.target ms message) where
  judges := by
    refine judges_failure ?_ _ _ _ _
    rintro ⟨days, hdays, -⟩
    exact h days hdays
  days := fun days hdays => absurd hdays (h days)
  none := fun _ => rfl

theorem TlsProbe.judges (h : TlsProbe.probe w cfg = ready t r) : TlsJudges w cfg r := by
  unfold TlsProbe.probe at h
  cases hconfig : w.tlsConfig with
  | error e =>
    rw [hconfig] at h
    rw [← eq_of_pure h]
    refine tlsJudges_failure ?_ _ _ _
    rintro days ⟨hok, -⟩
    rw [hconfig] at hok
    cases hok
  | ok =>
    rw [hconfig] at h
    rcases wait_then h with ⟨u, hu, leaf, v, hsucc, hr⟩ | ⟨hlate, e, v, hr⟩
    · have hpresents : Presents w cfg u leaf := succeeds_fetchPeerCertificate_iff.mp hsucc
      rw [← eq_of_pure hr]
      unfold Tls.verdict
      cases hdays : certExpiryDays w leaf with
      | error e =>
        refine tlsJudges_failure ?_ _ _ _
        rintro days ⟨-, u', -, leaf', notAfter, hpresents', hnotAfter, heq⟩
        obtain ⟨-, rfl⟩ := hsucc.unique (succeeds_fetchPeerCertificate_iff.mpr hpresents')
        rw [certExpiryDays_eq_ok_iff.mpr ⟨notAfter, hnotAfter, heq⟩] at hdays
        cases hdays
      | ok days =>
        have hleft : DaysLeft w cfg days := by
          obtain ⟨notAfter, hnotAfter, heq⟩ := certExpiryDays_eq_ok_iff.mp hdays
          exact ⟨hconfig, u, hu, leaf, notAfter, hpresents, hnotAfter, heq⟩
        have honly : ∀ days', DaysLeft w cfg days' → days' = days := fun _ h' => h'.unique hleft
        dsimp only
        cases hverdict : expiryVerdict days (cfg.tlsExpiryFailDays.getD (F64.ofInt 0)) with
        | none =>
          refine ⟨(judges_up ?_ _ _).withMetric _ _, ?_, fun hnone => absurd hleft (hnone days)⟩
          · obtain ⟨hexpired, hsoon⟩ := expiryVerdict_eq_none_iff.mp hverdict
            exact ⟨days, hleft, hexpired, hsoon⟩
          · intro days' hdays'
            rw [honly days' hdays']
            rfl
        | some why =>
          refine ⟨(judges_failure ?_ _ _ _ _).withMetric _ _, ?_,
            fun hnone => absurd hleft (hnone days)⟩
          · rintro ⟨days', hdays', hexpired, hsoon⟩
            obtain rfl := honly days' hdays'
            rw [expiryVerdict_eq_none_iff.mpr ⟨hexpired, hsoon⟩] at hverdict
            cases hverdict
          · intro days' hdays'
            rw [honly days' hdays']
            rfl
    · rw [← eq_of_pure hr]
      refine tlsJudges_failure ?_ _ _ _
      rintro days ⟨-, u, hu, leaf, notAfter, hpresents, -⟩
      exact absurd hu (Nat.not_le.mpr (hlate u _ (succeeds_fetchPeerCertificate_iff.mpr hpresents)))

/-! ### All of them -/

omit [F64 F] in
/-- Only a UDP probe has more than its timeout. -/
theorem Judges.or_overdue {healthy : Prop} (h : Judges r healthy) (htype : cfg.probeType ≠ .udp) :
    Judges r (healthy ∨ Overdue w cfg) :=
  ⟨h.up.trans (or_iff_left fun hover => htype hover.1).symm, h.error⟩

/-- **A probe says what is so**, but for a UDP target that answers too late. -/
theorem execute_judges (h : execute w cfg = ready t r) :
    Judges r (Healthy w cfg ∨ Overdue w cfg) := by
  unfold execute at h
  unfold Healthy
  cases htype : cfg.probeType with
  | tcp =>
    rw [htype] at h
    exact (Tcp.judges h).or_overdue (by simp [htype])
  | http | https =>
    rw [htype] at h
    exact (HttpProbe.judges h).or_overdue (by simp [htype])
  | smtp =>
    rw [htype] at h
    exact (greetingProbe_judges beginning_220 h).or_overdue (by simp [htype])
  | imap =>
    rw [htype] at h
    exact (greetingProbe_judges beginning_ok h).or_overdue (by simp [htype])
  | udp =>
    rw [htype] at h
    obtain ⟨hup, herror⟩ := Udp.judges h
    exact ⟨hup.trans (Udp.eachInTime_iff htype), herror⟩
  | dns =>
    rw [htype] at h
    exact (Dns.judges h).or_overdue (by simp [htype])
  | tls =>
    rw [htype] at h
    exact (TlsProbe.judges h).judges.or_overdue (by simp [htype])

end Huginn.Probes
