import Huginn.Web.Dashboard

/-!
# When the dashboard shows what the server has

The map has the last of the results that were sent and of the one about to be sent
(`Dashboard.MapInv`), and once the snapshot has been applied the page shows it with the messages
delivered on top (`Dashboard.Shows`). So the page converges as long as what the snapshot lacks is
among the messages (`Dashboard.Current`): it always is when the stream is subscribed to before
the snapshot is given, and otherwise when no newer result was sent in between
(`Dashboard.SnapshotCurrent`). A subscription that comes too late leaves a row that is never put
right by the messages so far (`Dashboard.not_converged_of_stale`).
-/

namespace Huginn.Web

variable {F : Type}

/-! ### The page -/

namespace Page

variable {p : Page F} {r : ProbeResult F}

theorem foldl_upsertRow (l : List (ProbeResult F)) (p : Page F) : l.foldl upsertRow p =
    { p with rows := l.foldl (fun m r => m.insert r.probeName r) p.rows } := by
  induction l generalizing p with
  | nil => rfl
  | cons r l ih => rw [List.foldl_cons, ih, List.foldl_cons, upsertRow]

/-- A message before the snapshot is held back. -/
theorem onMessage_of_not_seeded (h : p.seeded = false) :
    p.onMessage r = { p with pending := p.pending ++ [r] } := by
  rw [onMessage, h]
  exact if_neg Bool.false_ne_true

/-- A message after the snapshot is shown. -/
theorem onMessage_of_seeded (h : p.seeded = true) : p.onMessage r = p.upsertRow r := by
  rw [onMessage, h]
  exact if_pos rfl

theorem get_rows_upsertRow :
    (p.upsertRow r).rows.get = Function.update p.rows.get r.probeName (some r) :=
  HashMap.get_insert _ _ _

@[simp]
theorem seeded_seed (p : Page F) (results : Option (List (ProbeResult F))) :
    (p.seed results).seeded = true := by
  rw [seed, foldl_upsertRow, foldl_upsertRow]

/-- The rows after the snapshot: what it says, with what was held back on top. -/
theorem get_rows_seed (hrows : p.rows = .empty) (results : List (ProbeResult F)) :
    (p.seed (some results)).rows.get =
      overlay ProbeResult.probeName (lastResult results) p.pending := by
  have hempty : (HashMap.empty : HashMap String (ProbeResult F)).get = fun _ => none :=
    funext HashMap.get_empty
  rw [seed, foldl_upsertRow, foldl_upsertRow, HashMap.get_foldl_insert]
  show overlay _ (results.foldl _ p.rows).get _ = _
  rw [HashMap.get_foldl_insert, hrows, hempty, overlay_none]

end Page

namespace Dashboard

variable {s t : Dashboard F} {a : DashboardAction F} {as : List (DashboardAction F)}

/-! ### What a step does -/

/-- What a step can do, by where it was taken. -/
inductive StepTo (s : Dashboard F) : DashboardAction F → Dashboard F → Prop
  | insert (r : ProbeResult F) (hs : s.sending = none) :
      StepTo s (.insert r) { s with web := s.web.insert r, sending := some r }
  | send (r : ProbeResult F) (hs : s.sending = some r) :
      StepTo s .send { s with web := s.web.send r, sending := none }
  | subscribe (hs : s.stream = none) : StepTo s .subscribe
      { s with stream := some ⟨s.web.sseTx.sent.length, s.web.sseTx.sent.length⟩ }
  | forward (stream : Stream) (r : ProbeResult F) (hs : s.stream = some stream)
      (hr : s.web.sseTx.sent[stream.next]? = some r) :
      StepTo s .forward
        { s with stream := some { stream with next := stream.next + 1 }, wire := s.wire ++ [r] }
  | lagged (stream : Stream) (hs : s.stream = some stream)
      (hlag : stream.next < s.web.sseTx.oldest) :
      StepTo s .forward
        { s with stream := some { stream with next := s.web.sseTx.oldest } }
  | read (hf : s.fetch = .asked) :
      StepTo s .read { s with fetch := .answered s.web.results.values }
  | deliver (r : ProbeResult F) (wire : List (ProbeResult F)) (hw : s.wire = r :: wire) :
      StepTo s .deliver { s with wire := wire, page := s.page.onMessage r }
  | seed (results : List (ProbeResult F)) (hf : s.fetch = .answered results) :
      StepTo s .seed { s with fetch := .applied results, page := s.page.seed (some results) }
  | fail (hf : s.fetch = .asked ∨ ∃ results, s.fetch = .answered results) :
      StepTo s .fail { s with fetch := .failed, page := s.page.seed none }

theorem forwardStep_to {stream : Stream} (hs : s.stream = some stream)
    (h : s.forwardStep stream = some t) : StepTo s .forward t := by
  rw [forwardStep, Broadcast.recv] at h
  by_cases hlag : stream.next < s.web.sseTx.oldest
  · rw [if_pos hlag] at h
    exact Option.some.inj h ▸ .lagged stream hs hlag
  · rw [if_neg hlag] at h
    cases hr : s.web.sseTx.sent[stream.next]? with
    | some r =>
      rw [hr] at h
      exact Option.some.inj h ▸ .forward stream r hs hr
    | none =>
      rw [hr] at h
      by_cases hsenders : s.web.sseTx.senders = 0
      · simp [hsenders] at h
      · simp [hsenders] at h

/-- **The step lemma.** -/
theorem step_to (h : s.step a = some t) : StepTo s a t := by
  cases a with
  | insert r =>
    simp only [step] at h
    split at h
    · next hs => exact Option.some.inj h ▸ .insert r hs
    · cases h
  | send =>
    simp only [step] at h
    split at h
    · next r hs => exact Option.some.inj h ▸ .send r hs
    · cases h
  | subscribe =>
    simp only [step] at h
    split at h
    · next hs => exact Option.some.inj h ▸ .subscribe hs
    · cases h
  | forward =>
    simp only [step] at h
    split at h
    · next stream hs => exact forwardStep_to hs h
    · cases h
  | read =>
    simp only [step] at h
    split at h
    · next hf => exact Option.some.inj h ▸ .read hf
    all_goals cases h
  | deliver =>
    simp only [step] at h
    split at h
    · next r wire hw => exact Option.some.inj h ▸ .deliver r wire hw
    · cases h
  | seed =>
    simp only [step] at h
    split at h
    · next results hf => exact Option.some.inj h ▸ .seed results hf
    all_goals cases h
  | fail =>
    simp only [step] at h
    split at h
    · next hf => exact Option.some.inj h ▸ .fail (.inl hf)
    · next results hf => exact Option.some.inj h ▸ .fail (.inr ⟨results, hf⟩)
    all_goals cases h

/-! ### The invariant -/

/-- What the page shows when it has been given the messages `seen`. -/
def Shows (s : Dashboard F) (seen : List (ProbeResult F)) : Prop :=
  match s.fetch with
  | .asked | .answered _ =>
    s.page.seeded = false ∧ s.page.rows = .empty ∧ s.page.pending = seen
  | .applied results => s.page.seeded = true ∧
    s.page.rows.get = overlay ProbeResult.probeName (lastResult results) seen
  | .failed => True

/-- The messages `seen` are those that the stream has passed on, but for those on the wire. -/
structure Delivered (s : Dashboard F) (seen : List (ProbeResult F)) : Prop where
  before : s.stream = none → seen = [] ∧ s.wire = []
  after : ∀ stream, s.stream = some stream →
    stream.subscribed ≤ s.web.sseTx.sent.length ∧ stream.next ≤ s.web.sseTx.sent.length ∧
      s.web.sseTx.sent.take stream.next =
        s.web.sseTx.sent.take stream.subscribed ++ (seen ++ s.wire)

/-- The map has everything that was sent, and what is about to be sent. -/
def MapInv (s : Dashboard F) : Prop :=
  s.web.results.get = lastResult (s.web.sseTx.sent ++ s.sending.toList)

/-- What the snapshot lacks was sent after the subscription, or is about to be sent. -/
def Current (s : Dashboard F) : Prop :=
  ∀ stream results, s.stream = some stream → s.snapshot = some results → ∀ name,
    lastResult (s.web.sseTx.sent.drop stream.subscribed ++ s.sending.toList) name = none →
      lastResult results name = lastResult (s.web.sseTx.sent.take stream.subscribed) name

theorem not_sending_iff {name : String} :
    ¬ s.Sending name ↔ lastResult s.sending.toList name = none := by
  rw [lastResult, lastTo_eq_none_iff, Sending]
  simp

/-- The map of the probes that are not about to be sent. -/
theorem MapInv.get_of_not_sending (h : s.MapInv) {name : String} (hs : ¬ s.Sending name) :
    s.web.results.get name = lastResult s.web.sseTx.sent name := by
  have hnone : lastTo ProbeResult.probeName s.sending.toList name = none := not_sending_iff.mp hs
  rw [h, lastResult, lastTo_append, hnone, Option.none_or]

/-- What holds in every state of a run without lag whose subscription, if it comes after the
snapshot, finds the snapshot current. -/
structure Inv (s : Dashboard F) : Prop where
  map : s.MapInv
  page : ∃ seen, s.Delivered seen ∧ s.Shows seen
  current : s.Current

theorem inv_new : Inv (new : Dashboard F) where
  map := rfl
  page := ⟨[], ⟨fun _ => ⟨rfl, rfl⟩, fun _ h => nomatch h⟩, rfl, rfl, rfl⟩
  current := fun _ _ h => nomatch h

theorem mapInv_step (hi : s.MapInv) (h : s.step a = some t) : t.MapInv := by
  cases step_to h with
  | insert r hs =>
    rw [MapInv, hs, Option.toList_none, List.append_nil] at hi
    show (s.web.results.insert r.probeName r).get = lastTo _ (s.web.sseTx.sent ++ [r])
    rw [HashMap.get_insert, hi, lastTo_concat]
  | send r hs =>
    rw [MapInv, hs] at hi
    show s.web.results.get = lastResult ((s.web.sseTx.sent ++ [r]) ++ [])
    rw [hi, List.append_nil]
    rfl
  | subscribe | forward | lagged | read | deliver | seed | fail => exact hi

/-! ### The messages and the page -/

theorem Delivered.send {seen : List (ProbeResult F)} (hd : s.Delivered seen) (r : ProbeResult F) :
    Delivered { s with web := s.web.send r, sending := none } seen where
  before := hd.before
  after stream hs := by
    obtain ⟨hsub, hnext, htake⟩ := hd.after stream hs
    have hlen : (s.web.send r).sseTx.sent.length = s.web.sseTx.sent.length + 1 :=
      List.length_append
    refine ⟨by rw [hlen]; omega, by rw [hlen]; omega, ?_⟩
    show (s.web.sseTx.sent ++ [r]).take _ = (s.web.sseTx.sent ++ [r]).take _ ++ _
    rw [List.take_append_of_le_length hnext, List.take_append_of_le_length hsub]
    exact htake

theorem Delivered.subscribe {seen : List (ProbeResult F)} (hd : s.Delivered seen)
    (hs : s.stream = none) : Delivered
      { s with stream := some ⟨s.web.sseTx.sent.length, s.web.sseTx.sent.length⟩ } seen where
  before h := nomatch h
  after stream hstream := by
    obtain rfl := Option.some.inj hstream
    obtain ⟨hseen, hwire⟩ := hd.before hs
    refine ⟨le_refl _, le_refl _, ?_⟩
    show _ = _ ++ (seen ++ s.wire)
    rw [hseen, hwire, List.append_nil, List.append_nil]

theorem Delivered.forward {seen : List (ProbeResult F)} (hd : s.Delivered seen) {stream : Stream}
    {r : ProbeResult F} (hs : s.stream = some stream)
    (hr : s.web.sseTx.sent[stream.next]? = some r) : Delivered
      { s with stream := some { stream with next := stream.next + 1 }, wire := s.wire ++ [r] }
      seen where
  before h := nomatch h
  after stream' hstream' := by
    obtain rfl := Option.some.inj hstream'
    obtain ⟨hsub, -, htake⟩ := hd.after stream hs
    obtain ⟨hlt, -⟩ := List.getElem?_eq_some_iff.mp hr
    refine ⟨hsub, hlt, ?_⟩
    show s.web.sseTx.sent.take (stream.next + 1) = _ ++ (seen ++ (s.wire ++ [r]))
    rw [List.take_add_one, hr, htake, Option.toList_some, List.append_assoc, List.append_assoc]

theorem Delivered.deliver {seen wire : List (ProbeResult F)} (hd : s.Delivered seen)
    {r : ProbeResult F} (hw : s.wire = r :: wire) :
    Delivered { s with wire := wire, page := s.page.onMessage r } (seen ++ [r]) where
  before hs := by
    rw [(hd.before hs).2] at hw
    cases hw
  after stream hs := by
    obtain ⟨hsub, hnext, htake⟩ := hd.after stream hs
    refine ⟨hsub, hnext, htake.trans ?_⟩
    rw [hw, List.append_assoc, List.singleton_append]

theorem Shows.deliver {seen wire : List (ProbeResult F)} (hshows : s.Shows seen)
    (r : ProbeResult F) :
    Shows { s with wire := wire, page := s.page.onMessage r } (seen ++ [r]) := by
  unfold Shows at hshows ⊢
  cases hf : s.fetch with
  | asked | answered =>
    simp only [hf] at hshows ⊢
    obtain ⟨hseeded, hrows, hpending⟩ := hshows
    rw [Page.onMessage_of_not_seeded hseeded]
    exact ⟨hseeded, hrows, congrArg (· ++ [r]) hpending⟩
  | applied results =>
    simp only [hf] at hshows ⊢
    obtain ⟨hseeded, hrows⟩ := hshows
    rw [Page.onMessage_of_seeded hseeded]
    refine ⟨hseeded, ?_⟩
    rw [Page.get_rows_upsertRow, hrows, overlay_concat]
  | failed => trivial

theorem page_step (hi : ∃ seen, s.Delivered seen ∧ s.Shows seen) (hlag : s.NoLag a)
    (h : s.step a = some t) : ∃ seen, t.Delivered seen ∧ t.Shows seen := by
  obtain ⟨seen, hd, hshows⟩ := hi
  cases step_to h with
  | insert r hs => exact ⟨seen, ⟨hd.before, hd.after⟩, hshows⟩
  | send r hs => exact ⟨seen, hd.send r, hshows⟩
  | subscribe hs => exact ⟨seen, hd.subscribe hs, hshows⟩
  | forward stream r hs hr => exact ⟨seen, hd.forward hs hr, hshows⟩
  | lagged stream hs hlt =>
    simp only [NoLag, hs] at hlag
    omega
  | read hf =>
    rw [Shows, hf] at hshows
    exact ⟨seen, ⟨hd.before, hd.after⟩, hshows⟩
  | deliver r wire hw => exact ⟨seen ++ [r], hd.deliver hw, hshows.deliver r⟩
  | seed results hf =>
    rw [Shows, hf] at hshows
    obtain ⟨-, hrows, rfl⟩ := hshows
    exact ⟨_, ⟨hd.before, hd.after⟩, Page.seeded_seed _ _, Page.get_rows_seed hrows results⟩
  | fail => exact ⟨seen, ⟨hd.before, hd.after⟩, trivial⟩

/-! ### The snapshot -/

theorem Current.subscribe (hmap : s.MapInv) (hok : s.SnapshotCurrent .subscribe) : Current
    { s with stream := some ⟨s.web.sseTx.sent.length, s.web.sseTx.sent.length⟩ } := by
  intro stream results hstream hsnapshot name hname
  obtain rfl := Option.some.inj hstream
  dsimp only at hname ⊢
  rw [List.drop_length, List.nil_append] at hname
  rw [List.take_length, ← hmap.get_of_not_sending (not_sending_iff.mpr hname)]
  exact hok results hsnapshot name (not_sending_iff.mpr hname)

/-- A snapshot that is given after the subscription lacks nothing. -/
theorem Current.read (hmap : s.MapInv) : Current
    { s with fetch := .answered s.web.results.values } := by
  intro stream results _ hsnapshot name hname
  obtain rfl := Option.some.inj hsnapshot
  dsimp only at hname ⊢
  rw [lastResult, HashMap.lastTo_values (HashMap.key_eq_of_get hmap), hmap,
    ← List.take_append_drop stream.subscribed s.web.sseTx.sent, List.append_assoc, lastResult,
    lastTo_append]
  rw [List.take_append_drop, show lastTo _ _ name = none from hname, Option.none_or]

theorem current_step (hi : s.Inv) (hok : s.SnapshotCurrent a) (h : s.step a = some t) :
    t.Current := by
  cases step_to h with
  | insert r hs =>
    intro stream results hstream hsnapshot name hname
    refine hi.current stream results hstream hsnapshot name ?_
    rw [hs, Option.toList_none, List.append_nil]
    rw [lastResult, lastTo_append] at hname
    exact (Option.or_eq_none_iff.mp hname).2
  | send r hs =>
    intro stream results hstream hsnapshot name hname
    obtain ⟨seen, hd, -⟩ := hi.page
    obtain ⟨hsub, -, -⟩ := hd.after stream hstream
    have hdrop : (s.web.send r).sseTx.sent.drop stream.subscribed =
        s.web.sseTx.sent.drop stream.subscribed ++ [r] := List.drop_append_of_le_length hsub
    have htake : (s.web.send r).sseTx.sent.take stream.subscribed =
        s.web.sseTx.sent.take stream.subscribed := List.take_append_of_le_length hsub
    dsimp only at hname ⊢
    rw [hdrop, Option.toList_none, List.append_nil] at hname
    rw [htake]
    exact hi.current stream results hstream hsnapshot name (by rwa [hs])
  | subscribe hs => exact Current.subscribe hi.map hok
  | forward stream r hs hr =>
    intro stream' results hstream' hsnapshot name hname
    obtain rfl := Option.some.inj hstream'
    exact hi.current stream results hs hsnapshot name hname
  | lagged stream hs hlt =>
    intro stream' results hstream' hsnapshot name hname
    obtain rfl := Option.some.inj hstream'
    exact hi.current stream results hs hsnapshot name hname
  | read hf => exact Current.read hi.map
  | deliver r wire hw => exact hi.current
  | seed results hf =>
    intro stream results' hstream hsnapshot name hname
    obtain rfl := Option.some.inj hsnapshot
    exact hi.current stream results hstream (by rw [snapshot, hf]) name hname
  | fail => exact fun _ _ _ h => nomatch h

theorem inv_step (hi : s.Inv) (hok : s.NoLag a ∧ s.SnapshotCurrent a) (h : s.step a = some t) :
    t.Inv where
  map := mapInv_step hi.map h
  page := page_step hi.page hok.1 h
  current := current_step hi hok.2 h

theorem inv_run (h : Run step (fun s a => s.NoLag a ∧ s.SnapshotCurrent a) new as s) : s.Inv :=
  h.invariant inv_new fun _ _ _ hi hok hst => inv_step hi hok hst

/-! ### Convergence -/

/-- What the snapshot lacks has been delivered. -/
theorem Inv.converged (hi : s.Inv) : s.Converged := by
  intro results stream hf hs hnext hwire name hsending
  obtain ⟨seen, hd, hshows⟩ := hi.page
  rw [Shows, hf] at hshows
  obtain ⟨-, -, htake⟩ := hd.after stream hs
  rw [hnext, List.take_length, hwire, List.append_nil] at htake
  have hdrop : s.web.sseTx.sent.drop stream.subscribed = seen := by
    have happ := List.take_append_drop stream.subscribed s.web.sseTx.sent
    exact List.append_cancel_left (happ.trans htake)
  rw [hshows.2, hi.map.get_of_not_sending hsending, htake]
  refine overlay_eq_lastTo fun hnone => ?_
  refine hi.current stream results hs (by rw [snapshot, hf]) name ?_
  rw [hdrop, lastResult, lastTo_append, hnone]
  exact congrArg (Option.or · none) (not_sending_iff.mp hsending)

/-- A subscription that misses a newer result leaves its row behind, as soon as the snapshot has
been applied. -/
theorem not_converged_of_stale (hrun : Run step NoLag new as s) (hst : s.step .subscribe = some t)
    (hnot : ¬ s.SnapshotCurrent .subscribe) :
    ∃ bs u, bs.length ≤ 1 ∧ Run step NoLag t bs u ∧ ¬ u.Converged := by
  obtain ⟨seen, hd, hshows⟩ : ∃ seen, s.Delivered seen ∧ s.Shows seen :=
    hrun.invariant (I := fun s => ∃ seen, s.Delivered seen ∧ s.Shows seen) inv_new.page
      fun _ _ _ hi hlag hst => page_step hi hlag hst
  simp only [SnapshotCurrent, not_forall] at hnot
  obtain ⟨results, hsnapshot, name, hsending, hstale⟩ := hnot
  cases step_to hst with
  | subscribe hs =>
    obtain ⟨rfl, hwire⟩ := hd.before hs
    cases hf : s.fetch with
    | asked | failed =>
      rw [snapshot, hf] at hsnapshot
      cases hsnapshot
    | applied results' =>
      rw [snapshot, hf] at hsnapshot
      obtain rfl := Option.some.inj hsnapshot
      rw [Shows, hf] at hshows
      obtain ⟨-, hrows⟩ := hshows
      rw [overlay_nil] at hrows
      refine ⟨[], _, Nat.zero_le 1, .nil, fun hconverged => hstale ?_⟩
      rw [← hconverged results' _ rfl rfl rfl hwire name hsending]
      exact congrFun hrows.symm name
    | answered results' =>
      rw [snapshot, hf] at hsnapshot
      obtain rfl := Option.some.inj hsnapshot
      rw [Shows, hf] at hshows
      obtain ⟨-, hrows, hpending⟩ := hshows
      refine ⟨[.seed], _, le_refl 1, .single trivial rfl, fun hconverged => hstale ?_⟩
      rw [← hconverged results' _ rfl rfl rfl hwire name hsending]
      show _ = (s.page.seed (some results')).rows.get name
      rw [Page.get_rows_seed hrows, hpending, overlay_nil]

/-- **The page converges to what the server has, exactly as long as the stream is not subscribed to
after a snapshot that is out of date.** In every run without lag whose subscription finds the
snapshot current, if one was given before, the page has converged in every state. And from a state
in which it does not, the page is at once, or as soon as the snapshot is applied, in a state in
which it has not converged. -/
theorem converges (F : Type) :
    (∀ as s, Run step (fun s a => s.NoLag a ∧ s.SnapshotCurrent a) (new : Dashboard F) as s →
      s.Converged) ∧
    (∀ as s t, Run step NoLag (new : Dashboard F) as s → s.step .subscribe = some t →
      ¬ s.SnapshotCurrent .subscribe →
        ∃ bs u, bs.length ≤ 1 ∧ Run step NoLag t bs u ∧ ¬ u.Converged) :=
  ⟨fun _ _ hrun => (inv_run hrun).converged,
    fun _ _ _ hrun hst hnot => not_converged_of_stale hrun hst hnot⟩

/-- As long as nothing has left the channel, no stream falls behind. -/
theorem noLag_of_oldest (h : s.web.sseTx.oldest = 0) : s.NoLag a := by
  unfold NoLag
  split
  · rw [h]
    exact Nat.zero_le _
  · trivial

/-- The stream is subscribed to before the snapshot is given. -/
def subscribesFirst (s : Dashboard F) (a : DashboardAction F) : Bool :=
  match a with
  | .subscribe => s.snapshot.isNone
  | _ => true

/-- The order in which the page makes its requests is a good one for the server to handle them. -/
theorem current_of_subscribesFirst (h : s.subscribesFirst a = true) : s.SnapshotCurrent a := by
  cases a with
  | subscribe =>
    intro results hsnapshot
    have hnone : s.snapshot = none := Option.isNone_iff_eq_none.mp h
    rw [hnone] at hsnapshot
    cases hsnapshot
  | insert | send | forward | read | deliver | seed | fail => trivial

/-- Two results of one probe. -/
def shownResult (up : Bool) : ProbeResult Decimal :=
  { ProbeResult.success ⟨1700000000000000000⟩ "web" "http" "http://example.org/" (F64.ofInt 12)
      (some 200) with up := up }

/-- The page subscribes, and a result that comes after the snapshot is delivered. -/
def subscribeFirst : List (DashboardAction Decimal) :=
  [.subscribe, .insert (shownResult true), .send, .read, .forward, .seed, .deliver,
    .insert (shownResult false), .send, .forward, .deliver]

theorem converges_subscribeFirst :
    ∃ s, Run step (fun s a => s.NoLag a ∧ s.SnapshotCurrent a) new subscribeFirst s ∧
      s.Converged ∧ s.page.rows.get "web" = some (shownResult false) := by
  obtain ⟨s, hs⟩ : ∃ s, runActions step (fun s a => s.web.sseTx.oldest = 0 ∧
      s.subscribesFirst a = true) new subscribeFirst = some s := ⟨_, rfl⟩
  have hrun : Run step (fun s a => s.NoLag a ∧ s.SnapshotCurrent a) new subscribeFirst s :=
    (run_of_runActions _ hs).mono fun _ _ h =>
      ⟨noLag_of_oldest h.1, current_of_subscribesFirst h.2⟩
  refine ⟨s, hrun, (converges Decimal).1 _ s hrun, ?_⟩
  obtain rfl := Option.some.inj hs
  rfl

/-- The server gives the snapshot first, and a result is inserted and sent before the stream is
subscribed to. -/
def readFirst : List (DashboardAction Decimal) :=
  [.read, .insert (shownResult true), .send, .subscribe, .seed]

theorem readFirst_misses_a_result :
    ∃ s, Run step NoLag new readFirst s ∧ ¬ s.Converged ∧
      s.web.results.get "web" = some (shownResult true) ∧ s.page.rows.get "web" = none := by
  obtain ⟨s, hs⟩ : ∃ s, runActions step (fun s _ => s.web.sseTx.oldest = 0) new readFirst =
      some s := ⟨_, rfl⟩
  have hrun : Run step NoLag new readFirst s :=
    (run_of_runActions _ hs).mono fun _ _ h => noLag_of_oldest h
  have hrows : s.web.results.get "web" = some (shownResult true) ∧
      s.page.rows.get "web" = none := by
    obtain rfl := Option.some.inj hs
    exact ⟨rfl, rfl⟩
  refine ⟨s, hrun, fun hconverged => ?_, hrows⟩
  have hweb : s.page.rows.get "web" = s.web.results.get "web" := by
    obtain rfl := Option.some.inj hs
    refine hconverged _ _ rfl rfl rfl rfl "web" ?_
    rintro ⟨_, h, -⟩
    cases h
  rw [hrows.1, hrows.2] at hweb
  cases hweb

end Dashboard

end Huginn.Web
