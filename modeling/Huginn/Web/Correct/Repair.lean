import Huginn.Lib.Feed
import Huginn.Lib.Progress
import Huginn.Web.Correct.Dashboard

/-!
# What the next result puts right

The stream of a page may fall behind what the channel keeps, it may be subscribed to after the
snapshot was given, and the snapshot may fail. Then rows are missing, or show what was true once.
But the stream follows the channel (`Dashboard.Told`), and once it has read everything a row is the
newest result of its probe again, if that was sent since the subscription and is still kept
(`Dashboard.Tracked.repaired`). So a probe that goes on reporting puts its own row right.

The stream and the page on their own come to that point whatever the order of their steps, and the
capacity of the channel bounds how many steps this takes (`Dashboard.owed_lt`).
-/

namespace Huginn.Web

variable {F : Type}

/-- The rows once the snapshot has been applied, or has failed: what was held back on top of
something. -/
theorem Page.exists_get_rows_seed (p : Page F) (results : Option (List (ProbeResult F))) :
    ∃ base, (p.seed results).rows.get = overlay ProbeResult.probeName base p.pending := by
  refine ⟨((results.getD []).foldl (fun m r => m.insert r.probeName r) p.rows).get, ?_⟩
  rw [seed, foldl_upsertRow, foldl_upsertRow]
  exact HashMap.get_foldl_insert _ _ _

namespace Dashboard

variable {s t : Dashboard F} {a : DashboardAction F} {as : List (DashboardAction F)}

/-- The newest result of the probe was sent since the subscription, and is still kept. -/
def Recent (s : Dashboard F) (stream : Stream) (name : String) : Prop :=
  lastResult (s.web.sseTx.sent.drop (max stream.subscribed s.web.sseTx.oldest)) name ≠ none

/-- The rows of the probes that have reported recently are what the server has; but for the probe
whose message is about to be sent. -/
def Repaired (s : Dashboard F) (stream : Stream) : Prop :=
  ∀ name, ¬ s.Sending name → s.Recent stream name →
    s.page.rows.get name = s.web.results.get name

/-- The steps of the stream and of the page. -/
def reads : DashboardAction F → Bool
  | .forward | .deliver => true
  | .insert _ | .send | .subscribe | .read | .seed | .fail => false

/-! ### The stream as a receiver -/

/-- A stream reads the channel, and passes on the messages. -/
theorem step_forward {stream : Stream} (hs : s.stream = some stream)
    (hsenders : s.web.sseTx.senders ≠ 0) :
    s.step .forward = (s.web.sseTx.recv stream.next).map fun (event, next) =>
      { s with
        stream := some { stream with next := next }
        wire := s.wire ++ event.message.toList } := by
  simp only [step, hs, forwardStep]
  cases hrecv : s.web.sseTx.recv stream.next with
  | none => rfl
  | some read =>
    obtain ⟨event, next⟩ := read
    cases event with
    | ok r => rfl
    | lagged n =>
      show _ = some { s with
        stream := some { stream with next := next }
        wire := s.wire ++ [] }
      rw [List.append_nil]
    | closed =>
      cases Feed.recv_to hrecv with
      | closed hend hnone => exact absurd hnone hsenders

/-- The messages `seen` are those that a receiver was given, but for those on the wire. -/
structure Told (s : Dashboard F) (seen : List (ProbeResult F)) : Prop where
  before : s.stream = none → seen = [] ∧ s.wire = []
  after : ∀ stream, s.stream = some stream → ∃ f : Feed (ProbeResult F), f.Inv s.web.sseTx ∧
    f.start = stream.subscribed ∧ f.next = stream.next ∧ f.received = seen ++ s.wire

/-- What the page shows when it has been given the messages `seen`: these are on top of whatever
it had. -/
def ShowsLast (s : Dashboard F) (seen : List (ProbeResult F)) : Prop :=
  match s.fetch with
  | .asked | .answered _ =>
    s.page.seeded = false ∧ s.page.rows = .empty ∧ s.page.pending = seen
  | .applied _ | .failed => s.page.seeded = true ∧
    ∃ base, s.page.rows.get = overlay ProbeResult.probeName base seen

/-- What holds in every state of every run. -/
structure Tracked (s : Dashboard F) : Prop where
  capacity : s.web.sseTx.capacity = 256
  senders : s.web.sseTx.senders ≠ 0
  map : s.MapInv
  page : ∃ seen, s.Told seen ∧ s.ShowsLast seen

variable {seen wire : List (ProbeResult F)} {r : ProbeResult F} {stream : Stream}

theorem tracked_new : Tracked (new : Dashboard F) where
  capacity := rfl
  senders := Nat.one_ne_zero
  map := rfl
  page := ⟨[], ⟨fun _ => ⟨rfl, rfl⟩, fun _ h => nomatch h⟩, rfl, rfl, rfl⟩

theorem Told.send (ht : s.Told seen) (hsenders : s.web.sseTx.senders ≠ 0) (r : ProbeResult F) :
    Told { s with web := s.web.send r, sending := none } seen where
  before := ht.before
  after stream hs := by
    obtain ⟨f, hf, hstart, hnext, hreceived⟩ := ht.after stream hs
    exact ⟨f, hf.send hsenders, hstart, hnext, hreceived⟩

theorem Told.subscribe (ht : s.Told seen) (hs : s.stream = none) : Told
    { s with stream := some ⟨s.web.sseTx.sent.length, s.web.sseTx.sent.length⟩ } seen where
  before h := nomatch h
  after stream hstream := by
    obtain rfl := Option.some.inj hstream
    obtain ⟨hseen, hwire⟩ := ht.before hs
    refine ⟨.subscribe s.web.sseTx, Feed.inv_subscribe _, rfl, rfl, ?_⟩
    show [] = seen ++ s.wire
    rw [hseen, hwire, List.append_nil]

/-- What the stream reads, the receiver can read. -/
theorem event_of_recv {f : Feed (ProbeResult F)} (hf : f.Inv s.web.sseTx)
    (hsenders : s.web.sseTx.senders ≠ 0) : f.event s.web.sseTx = s.web.sseTx.recv f.next := by
  have hopen : f.ended ≠ true := fun hended => hsenders (hf.ended hended).1
  rw [Feed.event, if_neg hopen]

theorem Told.forward (ht : s.Told seen) (hsenders : s.web.sseTx.senders ≠ 0)
    (hs : s.stream = some stream) (h : s.step .forward = some t) : t.Told seen := by
  rw [step_forward hs hsenders, Option.map_eq_some_iff] at h
  obtain ⟨⟨event, next⟩, hrecv, rfl⟩ := h
  refine Told.mk (fun h => nomatch h) fun stream' hstream' => ?_
  obtain rfl := Option.some.inj hstream'
  obtain ⟨f, hf, hstart, hnext, hreceived⟩ := ht.after stream hs
  have hevent : f.event s.web.sseTx = some (event, next) := by
    rw [event_of_recv hf hsenders, hnext, hrecv]
  refine ⟨f.push event next, hf.push hevent, hstart, rfl, ?_⟩
  rw [Feed.received_push, hreceived, List.append_assoc]

theorem Told.deliver (ht : s.Told seen) (hw : s.wire = r :: wire) :
    Told { s with wire := wire, page := s.page.onMessage r } (seen ++ [r]) where
  before hs := by
    rw [(ht.before hs).2] at hw
    cases hw
  after stream hs := by
    obtain ⟨f, hf, hstart, hnext, hreceived⟩ := ht.after stream hs
    refine ⟨f, hf, hstart, hnext, ?_⟩
    rw [hreceived, hw, List.append_assoc, List.singleton_append]

/-! ### The page -/

theorem ShowsLast.deliver (hshows : s.ShowsLast seen) (r : ProbeResult F) :
    ShowsLast { s with wire := wire, page := s.page.onMessage r } (seen ++ [r]) := by
  unfold ShowsLast at hshows ⊢
  cases hf : s.fetch with
  | asked | answered =>
    simp only [hf] at hshows ⊢
    obtain ⟨hseeded, hrows, hpending⟩ := hshows
    rw [Page.onMessage_of_not_seeded hseeded]
    exact ⟨hseeded, hrows, congrArg (· ++ [r]) hpending⟩
  | applied | failed =>
    simp only [hf] at hshows ⊢
    obtain ⟨hseeded, base, hrows⟩ := hshows
    rw [Page.onMessage_of_seeded hseeded]
    refine ⟨hseeded, base, ?_⟩
    rw [Page.get_rows_upsertRow, hrows, overlay_concat]

/-- What was held back is on top of what the snapshot says. -/
theorem ShowsLast.pending (hshows : s.ShowsLast seen)
    (hf : s.fetch = .asked ∨ ∃ results, s.fetch = .answered results) : s.page.pending = seen := by
  rcases hf with hf | ⟨results, hf⟩
  · rw [ShowsLast, hf] at hshows
    exact hshows.2.2
  · rw [ShowsLast, hf] at hshows
    exact hshows.2.2

/-- **The step lemma.** -/
theorem tracked_step (hi : s.Tracked) (h : s.step a = some t) : t.Tracked := by
  have hmap : t.MapInv := mapInv_step hi.map h
  obtain ⟨seen, ht, hshows⟩ := hi.page
  cases step_to h with
  | insert r hs => exact ⟨hi.capacity, hi.senders, hmap, seen, ⟨ht.before, ht.after⟩, hshows⟩
  | send r hs => exact ⟨hi.capacity, hi.senders, hmap, seen, ht.send hi.senders r, hshows⟩
  | subscribe hs => exact ⟨hi.capacity, hi.senders, hmap, seen, ht.subscribe hs, hshows⟩
  | forward stream r hs hr =>
    exact ⟨hi.capacity, hi.senders, hmap, seen, ht.forward hi.senders hs h, hshows⟩
  | lagged stream hs hlag =>
    exact ⟨hi.capacity, hi.senders, hmap, seen, ht.forward hi.senders hs h, hshows⟩
  | read hf =>
    rw [ShowsLast, hf] at hshows
    exact ⟨hi.capacity, hi.senders, hmap, seen, ⟨ht.before, ht.after⟩, hshows⟩
  | deliver r wire hw =>
    exact ⟨hi.capacity, hi.senders, hmap, seen ++ [r], ht.deliver hw, hshows.deliver r⟩
  | seed results hf =>
    obtain rfl := hshows.pending (.inr ⟨results, hf⟩)
    exact ⟨hi.capacity, hi.senders, hmap, _, ⟨ht.before, ht.after⟩, Page.seeded_seed _ _,
      Page.exists_get_rows_seed _ _⟩
  | fail hf =>
    obtain rfl := hshows.pending hf
    exact ⟨hi.capacity, hi.senders, hmap, _, ⟨ht.before, ht.after⟩, Page.seeded_seed _ _,
      Page.exists_get_rows_seed _ _⟩

theorem tracked_run (h : FreeRun step new as s) : s.Tracked :=
  h.invariant tracked_new fun _ _ _ hi _ hst => tracked_step hi hst

/-- The rows of a page that has had its snapshot, or has done without, are those of the messages
that it was given. -/
theorem ShowsLast.get_rows (hshows : s.ShowsLast seen) (hseeded : s.page.seeded = true)
    {name : String} (hr : lastResult seen name = some r) : s.page.rows.get name = some r := by
  cases hf : s.fetch with
  | asked | answered =>
    rw [ShowsLast, hf] at hshows
    exact absurd (hseeded.symm.trans hshows.1) Bool.false_ne_true.symm
  | applied | failed =>
    rw [ShowsLast, hf] at hshows
    obtain ⟨-, base, hrows⟩ := hshows
    rw [hrows, overlay, show lastTo _ _ name = _ from hr, Option.some_or]

/-- **Who has reported recently has a current row**, once everything has been read. -/
theorem Tracked.repaired (hi : s.Tracked) (hs : s.stream = some stream)
    (hseeded : s.page.seeded = true) (hnext : stream.next = s.web.sseTx.sent.length)
    (hwire : s.wire = []) : s.Repaired stream := by
  intro name hsending hrecent
  obtain ⟨seen, ht, hshows⟩ := hi.page
  obtain ⟨f, hf, hstart, hfnext, hreceived⟩ := ht.after stream hs
  rw [hwire, List.append_nil] at hreceived
  rw [Recent, ← hstart] at hrecent
  have hlast : lastResult seen name = lastResult s.web.sseTx.sent name := by
    rw [← hreceived]
    exact hf.lastTo_received (hfnext.trans hnext) hrecent
  have hsent : lastResult s.web.sseTx.sent name ≠ none := by
    rw [← List.take_append_drop (max f.start s.web.sseTx.oldest) s.web.sseTx.sent, lastResult,
      lastTo_append]
    exact fun hnone => hrecent (Option.or_eq_none_iff.mp hnone).1
  obtain ⟨r, hr⟩ := Option.ne_none_iff_exists'.mp hsent
  rw [hi.map.get_of_not_sending hsending, hr]
  exact hshows.get_rows hseeded (hlast.trans hr)

/-! ### Reading on -/

/-- How many steps the stream and the page have left: each event is read, and each message is
delivered as well. -/
def owed (s : Dashboard F) : ℕ :=
  2 * (s.stream.elim 0 fun stream =>
    Feed.backlog s.web.sseTx ⟨stream.subscribed, stream.next, []⟩) + s.wire.length

/-- The stream and the page have read on, and nothing else has happened. -/
structure ReadOn (s t : Dashboard F) : Prop where
  web : t.web = s.web
  sending : t.sending = s.sending
  subscribed : t.stream.map Stream.subscribed = s.stream.map Stream.subscribed
  seeded : t.page.seeded = s.page.seeded

theorem seeded_onMessage (p : Page F) (r : ProbeResult F) : (p.onMessage r).seeded = p.seeded := by
  cases h : p.seeded with
  | false => rw [Page.onMessage_of_not_seeded h, h]
  | true => rw [Page.onMessage_of_seeded h, Page.upsertRow, h]

theorem ReadOn.step {u : Dashboard F} (ht : s.ReadOn t) (ha : reads a = true)
    (h : t.step a = some u) : s.ReadOn u := by
  cases step_to h with
  | forward stream r hs hr =>
    exact ⟨ht.web, ht.sending, by rw [← ht.subscribed, hs]; rfl, ht.seeded⟩
  | lagged stream hs hlag =>
    exact ⟨ht.web, ht.sending, by rw [← ht.subscribed, hs]; rfl, ht.seeded⟩
  | deliver r wire hw =>
    exact ⟨ht.web, ht.sending, ht.subscribed, (seeded_onMessage _ _).trans ht.seeded⟩
  | insert | send | subscribe | read | seed | fail => cases ha

/-- The capacity of the channel bounds what is left to do. -/
theorem Tracked.owed_le (hi : s.Tracked) : s.owed ≤ 2 * (256 + 1) + s.wire.length := by
  unfold owed
  cases s.stream with
  | none =>
    rw [Option.elim_none]
    omega
  | some stream =>
    have hle := Feed.backlog_le s.web.sseTx ⟨stream.subscribed, stream.next, []⟩
    rw [hi.capacity] at hle
    rw [Option.elim_some]
    omega

/-- Every step leaves less to do. -/
theorem owed_lt (hi : s.Tracked) (ha : reads a = true) (h : s.step a = some t) :
    t.owed < s.owed := by
  cases a with
  | forward =>
    obtain ⟨stream, hs⟩ : ∃ stream, s.stream = some stream := by
      cases hs : s.stream with
      | none => simp only [step, hs, reduceCtorEq] at h
      | some stream => exact ⟨stream, rfl⟩
    rw [step_forward hs hi.senders, Option.map_eq_some_iff] at h
    obtain ⟨⟨event, next⟩, hrecv, rfl⟩ := h
    obtain ⟨seen, ht, -⟩ := hi.page
    obtain ⟨f, hf, -, hnext, -⟩ := ht.after stream hs
    have hevent : f.event s.web.sseTx = some (event, next) := by
      rw [event_of_recv hf hi.senders, hnext, hrecv]
    have hlt : (f.push event next).backlog s.web.sseTx < f.backlog s.web.sseTx :=
      hf.backlog_push_lt hi.senders hevent
    have hbacklog : f.backlog s.web.sseTx =
        Feed.backlog s.web.sseTx ⟨stream.subscribed, stream.next, []⟩ := by
      unfold Feed.backlog
      rw [hnext]
    have hone : event.message.toList.length ≤ 1 := Option.length_toList_le
    show 2 * (f.push event next).backlog s.web.sseTx +
      (s.wire ++ event.message.toList).length < s.owed
    rw [owed, hs, Option.elim_some, ← hbacklog, List.length_append]
    omega
  | deliver =>
    cases step_to h with
    | deliver r wire hw =>
      have hlt : wire.length < s.wire.length := by
        rw [hw, List.length_cons]
        exact Nat.lt_succ_self _
      exact Nat.add_lt_add_left hlt _
  | insert | send | subscribe | read | seed | fail => cases ha

/-- Where the stream and the page cannot go on, everything has been read. -/
theorem Tracked.read_of_stuck (hi : s.Tracked) (hs : s.stream = some stream)
    (hstuck : ∀ a, reads a = true → s.step a = none) :
    stream.next = s.web.sseTx.sent.length ∧ s.wire = [] := by
  constructor
  · have hwait := hstuck .forward rfl
    obtain ⟨seen, ht, -⟩ := hi.page
    obtain ⟨f, hf, -, hnext, -⟩ := ht.after stream hs
    rw [step_forward hs hi.senders, Option.map_eq_none_iff] at hwait
    exact ((Feed.recv_eq_none_iff (hnext ▸ hf.next_le)).mp hwait).1
  · have hwait := hstuck .deliver rfl
    cases hw : s.wire with
    | nil => rfl
    | cons r wire => simp only [step, hw, reduceCtorEq] at hwait

/-- **A probe that goes on reporting puts its own row right.** In every run, however far the stream
has fallen behind and whatever the snapshot lacked: once the page has had its snapshot, or has done
without, the stream and the page have a bounded number of steps left, in any order. When there is
none left, the row of every probe whose newest result was sent since the subscription and is still
kept is what the server has; but for the probe whose message is about to be sent. -/
theorem rows_repaired {F : Type} {as : List (DashboardAction F)} {s : Dashboard F}
    (hrun : FreeRun step new as s) {stream : Stream} (hs : s.stream = some stream)
    (hseeded : s.page.seeded = true) {bs : List (DashboardAction F)} {t : Dashboard F}
    (hreads : Run step (fun _ a => reads a = true) s bs t) :
    bs.length ≤ 2 * (256 + 1) + s.wire.length ∧
      ((∀ a, reads a = true → t.step a = none) →
        ∀ name, ¬ s.Sending name → s.Recent stream name →
          t.page.rows.get name = s.web.results.get name) := by
  have hi : s.Tracked := tracked_run hrun
  constructor
  · have hlen : bs.length + t.owed ≤ s.owed := hreads.length_add_measure_le hi
      (fun _ _ _ hi _ hst => tracked_step hi hst) fun _ _ _ hi ha hst => owed_lt hi ha hst
    have hle := hi.owed_le
    omega
  · intro hstuck name hsending hrecent
    have hit : t.Tracked := hreads.invariant hi fun _ _ _ hi _ hst => tracked_step hi hst
    have hon : s.ReadOn t := hreads.invariant (I := s.ReadOn) ⟨rfl, rfl, rfl, rfl⟩
      fun _ _ _ hon ha hst => hon.step ha hst
    obtain ⟨stream', hs', hsubscribed⟩ : ∃ stream', t.stream = some stream' ∧
        stream'.subscribed = stream.subscribed := by
      have hmap := hon.subscribed
      rw [hs] at hmap
      exact Option.map_eq_some_iff.mp hmap
    obtain ⟨hnext, hwire⟩ := hit.read_of_stuck hs' hstuck
    rw [← hon.web]
    refine hit.repaired hs' (hon.seeded.trans hseeded) hnext hwire name ?_ ?_
    · rwa [Sending, hon.sending]
    · rwa [Recent, hon.web, hsubscribed]

/-- The row that was missed is right after the next result. -/
theorem rows_repaired_readFirst :
    ∃ s t, FreeRun step new (readFirst ++ [.insert (shownResult false), .send]) s ∧
      s.page.rows.get "web" = none ∧
      Run step (fun _ a => reads a = true) s [.forward, .deliver] t ∧
      t.page.rows.get "web" = some (shownResult false) := by
  obtain ⟨s, hs⟩ : ∃ s, runActions step (fun _ _ => True) new
      (readFirst ++ [.insert (shownResult false), .send]) = some s := ⟨_, rfl⟩
  obtain ⟨t, ht⟩ : ∃ t, runActions step (fun _ a => reads a = true) s [.forward, .deliver] =
      some t := by
    obtain rfl := Option.some.inj hs
    exact ⟨_, rfl⟩
  have hrun := run_of_runActions _ hs
  have hreads := run_of_runActions _ ht
  obtain rfl := Option.some.inj hs
  refine ⟨_, t, hrun, rfl, hreads, ((rows_repaired hrun rfl rfl hreads).2 ?_ "web" ?_ ?_).trans rfl⟩
  · obtain rfl := Option.some.inj ht
    intro a ha
    cases a with
    | forward | deliver => rfl
    | insert | send | subscribe | read | seed | fail => cases ha
  · rintro ⟨_, h, -⟩
    cases h
  · exact fun h => nomatch h

end Dashboard

end Huginn.Web
