import Huginn.Core.Correct.Text
import Huginn.Probes.Correct.Deadline

/-!
# Greetings in pieces

A peer sends a stream of bytes, and TCP decides in which pieces they are read: a `Cut`. The loop of
`read_greeting_line` stops after few reads (`Cut.length_taken_le`, `Cut.length_takenBytes_lt`). How
far it reads depends on the pieces, but whether it reaches a line ending or the limit does not, and
neither does the beginning of what it has read. So the verdict of the SMTP and the IMAP probe is a
function of the stream alone (`verdictOf`, `greeting_verdict`).
-/

namespace Huginn.Probes

open Future

/-- One way in which a stream is read: the chunks, how long reading each takes, and how the stream
ends. -/
structure Cut where
  reads : List (ℕ × Chunk)
  finishMs : ℕ
  finish : Except String Unit

/-- The bytes of a sequence of reads. -/
def bytesOf (reads : List (ℕ × Chunk)) : List UInt8 := reads.flatMap fun r => r.2.bytes

/-- The time that a sequence of reads takes. -/
def millisOf (reads : List (ℕ × Chunk)) : ℕ := (reads.map Prod.fst).sum

namespace Cut

/-- The stream that is read in these pieces. -/
def stream (cut : Cut) : Stream where
  chunks := cut.reads.map fun r => .ready r.1 r.2
  finish := ExceptT.mk (.ready cut.finishMs cut.finish)

/-- The bytes that the peer sends. -/
def bytes (cut : Cut) : List UInt8 := bytesOf cut.reads

end Cut

/-! ### Where the loop stops -/

/-- The loop stops at a line ending and at the limit. -/
def GreetingDone (collected : List UInt8) : Prop :=
  0x0A ∈ collected ∨ MAX_GREETING_BYTES ≤ collected.length

instance (collected : List UInt8) : Decidable (GreetingDone collected) :=
  inferInstanceAs (Decidable (_ ∨ _))

theorem GreetingDone.append {collected : List UInt8} (h : GreetingDone collected)
    (more : List UInt8) : GreetingDone (collected ++ more) := by
  rcases h with hline | hlimit
  · exact .inl (List.mem_append_left more hline)
  · exact .inr (Nat.le_trans hlimit (by simp))

theorem GreetingDone.ne_nil {collected : List UInt8} (h : GreetingDone collected) :
    collected ≠ [] := by
  rintro rfl
  rcases h with hline | hlimit
  · cases hline
  · exact absurd hlimit (by decide)

theorem length_lt_of_not_done {collected : List UInt8} (h : ¬ GreetingDone collected) :
    collected.length < 512 :=
  Nat.not_le.mp fun hle => h (.inr hle)

/-- The reads that the loop makes, with what it has collected before. -/
def readsTaken (collected : List UInt8) : List (ℕ × Chunk) → List (ℕ × Chunk)
  | [] => []
  | r :: reads =>
    if GreetingDone (collected ++ r.2.bytes) then [r]
    else r :: readsTaken (collected ++ r.2.bytes) reads

theorem bytesOf_cons (r : ℕ × Chunk) (reads : List (ℕ × Chunk)) :
    bytesOf (r :: reads) = r.2.bytes ++ bytesOf reads := List.flatMap_cons

theorem bytesOf_singleton (r : ℕ × Chunk) : bytesOf [r] = r.2.bytes := by
  rw [bytesOf_cons, bytesOf, List.flatMap_nil, List.append_nil]

/-- What the loop reads is where the stream begins. -/
theorem bytesOf_readsTaken_prefix (collected : List UInt8) (reads : List (ℕ × Chunk)) :
    bytesOf (readsTaken collected reads) <+: bytesOf reads := by
  induction reads generalizing collected with
  | nil => exact List.prefix_rfl
  | cons r reads ih =>
    rw [readsTaken]
    split_ifs
    · rw [bytesOf_singleton, bytesOf_cons]
      exact List.prefix_append _ _
    · rw [bytesOf_cons, bytesOf_cons, List.prefix_append_right_inj]
      exact ih _

/-- The loop stops early exactly when the stream has a line ending or reaches the limit. -/
theorem done_readsTaken_iff (collected : List UInt8) (reads : List (ℕ × Chunk)) :
    GreetingDone (collected ++ bytesOf (readsTaken collected reads)) ↔
      GreetingDone (collected ++ bytesOf reads) := by
  induction reads generalizing collected with
  | nil => exact Iff.rfl
  | cons r reads ih =>
    rw [readsTaken]
    split_ifs with hdone
    · rw [bytesOf_singleton, bytesOf_cons, ← List.append_assoc]
      exact iff_of_true hdone (hdone.append _)
    · rw [bytesOf_cons, bytesOf_cons, ← List.append_assoc, ← List.append_assoc]
      exact ih _

/-- If it does not stop early, it reads the whole stream. -/
theorem readsTaken_of_not_done {collected : List UInt8} {reads : List (ℕ × Chunk)}
    (h : ¬ GreetingDone (collected ++ bytesOf reads)) : readsTaken collected reads = reads := by
  induction reads generalizing collected with
  | nil => rfl
  | cons r reads ih =>
    rw [bytesOf_cons, ← List.append_assoc] at h
    rw [readsTaken, if_neg fun hdone => h (hdone.append _), ih h]

/-- Every read but the last leaves the loop below the limit, and brings it at least one byte
closer. -/
theorem length_readsTaken_le {collected : List UInt8} (h : ¬ GreetingDone collected)
    (reads : List (ℕ × Chunk)) : (readsTaken collected reads).length + collected.length ≤ 512 := by
  induction reads generalizing collected with
  | nil =>
    have := length_lt_of_not_done h
    simpa [readsTaken] using this.le
  | cons r reads ih =>
    have hlt := length_lt_of_not_done h
    have hpos := List.length_pos_iff.mpr r.2.nonempty
    rw [readsTaken]
    split_ifs with hdone
    · rw [List.length_singleton]
      omega
    · have hrest := ih hdone
      rw [List.length_append] at hrest
      rw [List.length_cons]
      omega

theorem length_bytesOf_readsTaken_lt {collected : List UInt8} (h : ¬ GreetingDone collected)
    (reads : List (ℕ × Chunk)) :
    collected.length + (bytesOf (readsTaken collected reads)).length < 512 + 128 := by
  induction reads generalizing collected with
  | nil =>
    have := length_lt_of_not_done h
    simp only [readsTaken, bytesOf, List.flatMap_nil, List.length_nil]
    omega
  | cons r reads ih =>
    have hlt := length_lt_of_not_done h
    have hchunk := r.2.length_le
    rw [readsTaken]
    split_ifs with hdone
    · rw [bytesOf_singleton]
      omega
    · have hrest := ih hdone
      rw [List.length_append] at hrest
      rw [bytesOf_cons, List.length_append]
      omega

/-! ### What `read_greeting_line` returns -/

/-- What the loop comes to, given the reads that it makes. -/
def lineAfter (collected : List UInt8) (taken : List (ℕ × Chunk)) (finishMs : ℕ)
    (finish : Except String Unit) : Future (Except String String) :=
  let collected := collected ++ bytesOf taken
  if GreetingDone collected then .ready (millisOf taken) (.ok (greetingText collected))
  else .ready (millisOf taken + finishMs) (finish.map fun _ => greetingText collected)

/-- One round of the loop. -/
theorem run_readGreeting_cons (finish : Attempt Unit) (collected : List UInt8) (t : ℕ)
    (chunk : Chunk) (chunks : List (Future Chunk)) :
    (readGreeting finish collected (.ready t chunk :: chunks)).run =
      (if GreetingDone (collected ++ chunk.bytes) then
          ready 0 (.ok (greetingText (collected ++ chunk.bytes)))
        else (readGreeting finish (collected ++ chunk.bytes) chunks).run).delay t := by
  by_cases hdone : GreetingDone (collected ++ chunk.bytes)
  · rw [if_pos hdone, readGreeting]
    simp only [GreetingDone] at hdone
    show ((if _ then _ else _ : Attempt String).run).delay (t + 0) = _
    rw [if_pos hdone]
    rfl
  · rw [if_neg hdone, readGreeting]
    simp only [GreetingDone] at hdone
    show ((if _ then _ else _ : Attempt String).run).delay (t + 0) = _
    rw [if_neg hdone]
    rfl

/-- The loop, from what it has collected before. -/
theorem run_readGreeting {collected : List UInt8} (h : ¬ GreetingDone collected)
    (reads : List (ℕ × Chunk)) (finishMs : ℕ) (finish : Except String Unit) :
    (readGreeting (ExceptT.mk (.ready finishMs finish)) collected
      (reads.map fun r => .ready r.1 r.2)).run =
    lineAfter collected (readsTaken collected reads) finishMs finish := by
  induction reads generalizing collected with
  | nil =>
    have hnil : collected ++ bytesOf [] = collected := List.append_nil _
    rw [readsTaken, lineAfter, hnil, if_neg h]
    cases finish with
    | ok => exact congrArg (ready · _) (Nat.add_comm finishMs 0)
    | error msg => exact congrArg (ready · _) (Nat.add_comm finishMs 0)
  | cons r reads ih =>
    rw [List.map_cons, run_readGreeting_cons, readsTaken]
    split_ifs with hdone
    · rw [lineAfter, bytesOf_singleton, if_pos hdone, delay_ready]
      simp [millisOf]
    · rw [ih hdone, lineAfter, lineAfter, bytesOf_cons, ← List.append_assoc]
      split_ifs with hend
      · rw [delay_ready]
        simp [millisOf]
      · rw [delay_ready]
        simp [millisOf, Nat.add_assoc]

namespace Cut

/-- The reads that `read_greeting_line` makes. -/
def taken (cut : Cut) : List (ℕ × Chunk) := readsTaken [] cut.reads

/-- The bytes that it collects. -/
def takenBytes (cut : Cut) : List UInt8 := bytesOf cut.taken

/-- What it returns, and when. -/
def line (cut : Cut) : Future (Except String String) :=
  lineAfter [] cut.taken cut.finishMs cut.finish

theorem not_done_nil : ¬ GreetingDone [] := by decide

theorem run_readGreetingLine (cut : Cut) : (readGreetingLine cut.stream).run = cut.line :=
  run_readGreeting not_done_nil cut.reads cut.finishMs cut.finish

theorem length_taken_le (cut : Cut) : cut.taken.length ≤ 512 :=
  length_readsTaken_le not_done_nil cut.reads

theorem length_takenBytes_lt (cut : Cut) : cut.takenBytes.length < 512 + 128 := by
  have h := length_bytesOf_readsTaken_lt not_done_nil cut.reads
  rwa [List.length_nil, Nat.zero_add] at h

variable {cut : Cut}

theorem takenBytes_prefix : cut.takenBytes <+: cut.bytes :=
  bytesOf_readsTaken_prefix [] cut.reads

theorem done_takenBytes_iff : GreetingDone cut.takenBytes ↔ GreetingDone cut.bytes :=
  done_readsTaken_iff [] cut.reads

theorem takenBytes_of_not_done (h : ¬ GreetingDone cut.bytes) : cut.takenBytes = cut.bytes :=
  congrArg bytesOf (readsTaken_of_not_done (show ¬ GreetingDone ([] ++ bytesOf cut.reads) from h))

/-- The line is there, or the error at the end of a stream without one. -/
theorem line_eq : ∃ t, cut.line = .ready t
    (if GreetingDone cut.bytes then .ok (greetingText cut.takenBytes)
      else cut.finish.map fun _ => greetingText cut.takenBytes) := by
  have hnil : [] ++ bytesOf cut.taken = cut.takenBytes := List.nil_append _
  rw [line, lineAfter, hnil]
  simp only [done_takenBytes_iff]
  split_ifs
  · exact ⟨_, rfl⟩
  · exact ⟨_, rfl⟩

end Cut

/-! ### The beginning of what is read -/

section Beginning

variable {cut : Cut} {expected : String}

/-- A beginning without a line ending, and not longer than the limit. -/
structure Beginning (expected : String) : Prop where
  ascii : Ascii expected
  no_newline : 0x0A ∉ asciiBytes expected
  length_le : (asciiBytes expected).length ≤ MAX_GREETING_BYTES

/-- Nobody who reads up to a line ending, up to the limit, or to the end stops within the
beginning. -/
theorem Beginning.prefix_of_stopped (h : Beginning expected) {part bytes : List UInt8}
    (hpart : part <+: bytes) (hstop : GreetingDone part ∨ part = bytes)
    (hpre : asciiBytes expected <+: bytes) : asciiBytes expected <+: part := by
  rcases hstop with hdone | rfl
  · rcases List.prefix_or_prefix_of_prefix hpre hpart with hshort | hlong
    · exact hshort
    · rcases hdone with hline | hlimit
      · exact absurd (hlong.subset hline) h.no_newline
      · have hlength := Nat.le_antisymm hlong.length_le (Nat.le_trans h.length_le hlimit)
        have heq : part = asciiBytes expected := hlong.eq_of_length hlength
        exact heq ▸ List.prefix_rfl
  · exact hpre

/-- The text begins as the bytes do. -/
theorem Beginning.startsWith_iff (h : Beginning expected) (bytes : List UInt8) :
    startsWith (greetingText bytes) expected = true ↔ asciiBytes expected <+: bytes := by
  rw [greetingText, startsWith_fromUtf8Lossy h.ascii, List.prefix_take_iff,
    and_iff_left h.length_le]

/-- The text begins as the stream does. -/
theorem startsWith_greetingText (h : Beginning expected) :
    startsWith (greetingText cut.takenBytes) expected = true ↔
      asciiBytes expected <+: cut.bytes := by
  rw [h.startsWith_iff]
  constructor
  · exact fun hpre => hpre.trans Cut.takenBytes_prefix
  · -- the loop does not stop within the expected text
    refine h.prefix_of_stopped Cut.takenBytes_prefix ?_
    by_cases hdone : GreetingDone cut.bytes
    · exact .inl (Cut.done_takenBytes_iff.mpr hdone)
    · exact .inr (Cut.takenBytes_of_not_done hdone)

/-- The text is empty if the stream is. -/
theorem greetingText_eq_empty_iff : greetingText cut.takenBytes = "" ↔ cut.bytes = [] := by
  rw [greetingText, fromUtf8Lossy_eq_empty_iff, List.take_eq_nil_iff]
  by_cases hdone : GreetingDone cut.bytes
  · refine iff_of_false ?_ hdone.ne_nil
    rintro (hzero | hnil)
    · exact absurd hzero (by decide)
    · exact (Cut.done_takenBytes_iff.mpr hdone).ne_nil hnil
  · rw [Cut.takenBytes_of_not_done hdone]
    exact or_iff_right (by decide)

end Beginning

/-! ### The verdict -/

/-- The verdicts of a mail probe that has been connected and is not out of time. -/
inductive GreetingVerdict
  | up
  | empty
  | unexpected
  | readError
  deriving DecidableEq, Repr

/-- The verdict on a stream. -/
def verdictOf (expected : String) (bytes : List UInt8) (finish : Except String Unit) :
    GreetingVerdict :=
  if 0x0A ∈ bytes ∨ MAX_GREETING_BYTES ≤ bytes.length ∨ finish.isOk then
    if asciiBytes expected <+: bytes then .up else if bytes = [] then .empty else .unexpected
  else .readError

theorem verdictOf_eq_up_iff {expected : String} {bytes : List UInt8} {finish : Except String Unit} :
    verdictOf expected bytes finish = .up ↔ asciiBytes expected <+: bytes ∧
      (0x0A ∈ bytes ∨ MAX_GREETING_BYTES ≤ bytes.length ∨ finish.isOk) := by
  unfold verdictOf
  split_ifs with hover hpre hnil
  · exact iff_of_true rfl ⟨hpre, hover⟩
  · exact iff_of_false (by simp) fun h => hpre h.1
  · exact iff_of_false (by simp) fun h => hpre h.1
  · exact iff_of_false (by simp) fun h => hover h.2

variable {F : Type}

/-- A probe of type `probeType` gives this verdict. -/
def Gives (w : World F) (cfg : ProbeConfig F) (probeType emptyMessage unexpected : String)
    (probe : Future (ProbeResult F)) : GreetingVerdict → Prop
  | .up => ∃ t, probe = .ready t (up w cfg probeType none)
  | .empty => ∃ t, probe = .ready t (down w cfg probeType emptyMessage)
  | .unexpected => ∃ t greeting, probe =
      .ready t (down w cfg probeType (unexpected ++ trim greeting))
  | .readError => ∃ t msg, w.stream.finish.run.All (· = .error msg) ∧
      probe = .ready t (down w cfg probeType msg)

/-- `Smtp.probe` gives this verdict. -/
def Smtp.Gives (w : World F) (cfg : ProbeConfig F) : GreetingVerdict → Prop :=
  Probes.Gives w cfg "smtp" "empty banner" "unexpected banner: " (Smtp.probe w cfg)

/-- `Imap.probe` gives this verdict. -/
def Imap.Gives (w : World F) (cfg : ProbeConfig F) : GreetingVerdict → Prop :=
  Probes.Gives w cfg "imap" "empty greeting" "unexpected greeting: " (Imap.probe w cfg)

/-- The peer accepts the connection, its stream is read in these pieces, and this is over in
time. -/
structure Serves (w : World F) (cfg : ProbeConfig F) (cut : Cut) : Prop where
  stream : w.stream = cut.stream
  inTime : ∃ t u outcome, (w.connect cfg.target).run = .ready t (.ok ()) ∧
    (readGreetingLine w.stream).run = .ready u outcome ∧ t + u ≤ 1000 * cfg.timeoutSecs.toNat

variable {w : World F} {cfg : ProbeConfig F} {cut : Cut}

/-- Connecting and reading the line, in time. -/
theorem Serves.outcome (h : Serves w cfg cut) : ∃ t, withProbeTimeout cfg.timeout
      (timeoutMessage cfg) (do w.connect cfg.target; readGreetingLine w.stream) = .ready t
    (if GreetingDone cut.bytes then .ok (greetingText cut.takenBytes)
      else cut.finish.map fun _ => greetingText cut.takenBytes) := by
  obtain ⟨t, u, outcome, hconnect, hread, htime⟩ := h.inTime
  obtain ⟨u', hline⟩ := cut.line_eq
  -- the outcome that is in time is the one of the line
  obtain ⟨rfl, rfl⟩ : u = u' ∧ outcome = _ := by
    rw [h.stream, Cut.run_readGreetingLine, hline] at hread
    exact (Future.ready.inj hread).imp Eq.symm Eq.symm
  refine ⟨t + u, withProbeTimeout_of_le ?_ ?_⟩
  · rw [ExceptT.run_bind, hconnect, bind_ready]
    show (readGreetingLine w.stream).run.delay t = _
    rw [hread, delay_ready]
  · rw [asMillis_timeout]
    exact htime

theorem greetingProbe_gives {probeType expected emptyMessage unexpected : String}
    (hexpected : Beginning expected) (h : Serves w cfg cut) :
    Gives w cfg probeType emptyMessage unexpected
      (greetingProbe probeType expected emptyMessage unexpected w cfg)
      (verdictOf expected cut.bytes cut.finish) := by
  obtain ⟨t, houtcome⟩ := h.outcome
  rw [greetingProbe, houtcome, bind_ready]
  by_cases hover : GreetingDone cut.bytes ∨ cut.finish.isOk
  · -- there is a line, and its text decides
    have hline : (if GreetingDone cut.bytes then .ok (greetingText cut.takenBytes)
        else cut.finish.map fun _ => greetingText cut.takenBytes) =
        Except.ok (ε := String) (greetingText cut.takenBytes) := by
      rcases hover with hdone | hfinish
      · exact if_pos hdone
      · cases hf : cut.finish with
        | ok => exact ite_self _
        | error msg =>
          rw [hf] at hfinish
          cases hfinish
    rw [GreetingDone, or_assoc] at hover
    rw [hline, verdictOf, if_pos hover]
    simp only [startsWith_greetingText hexpected, greetingText_eq_empty_iff]
    split_ifs
    · exact ⟨t, rfl⟩
    · exact ⟨t, rfl⟩
    · exact ⟨t, _, rfl⟩
  · obtain ⟨hdone, hfinish⟩ := not_or.mp hover
    rw [GreetingDone, or_assoc] at hover
    rw [if_neg hdone, verdictOf, if_neg hover]
    cases hf : cut.finish with
    | ok =>
      rw [hf] at hfinish
      exact absurd rfl hfinish
    | error msg =>
      refine ⟨t, msg, ?_, rfl⟩
      rw [h.stream]
      intro u outcome heq
      obtain ⟨-, rfl⟩ := Future.ready.inj heq
      exact hf

theorem beginning_220 : Beginning "220" := ⟨by decide, by decide, by decide⟩

theorem beginning_ok : Beginning "* OK" := ⟨by decide, by decide, by decide⟩

/-- **The verdict does not depend on how the greeting is cut.** However a stream is cut,
`read_greeting_line` makes at most 512 reads that are not empty, of fewer than 512 + 128 bytes; and
for two cuts of one stream the SMTP probe gives one verdict, and the IMAP probe gives one, which is
UP exactly when the stream begins as expected and has a line ending, reaches the limit, or ends
without an error. -/
theorem greeting_verdict {F : Type} {w₁ w₂ : World F} {cfg : ProbeConfig F} {cut₁ cut₂ : Cut}
    (h₁ : Serves w₁ cfg cut₁) (h₂ : Serves w₂ cfg cut₂) (hbytes : cut₁.bytes = cut₂.bytes)
    (hfinish : cut₁.finish = cut₂.finish) :
    (∀ cut : Cut, (readGreetingLine cut.stream).run = cut.line ∧ cut.taken.length ≤ 512 ∧
      cut.takenBytes.length < 512 + 128) ∧
    (∃ v, Smtp.Gives w₁ cfg v ∧ Smtp.Gives w₂ cfg v ∧
      (v = .up ↔ asciiBytes "220" <+: cut₁.bytes ∧
        (0x0A ∈ cut₁.bytes ∨ 512 ≤ cut₁.bytes.length ∨ cut₁.finish.isOk))) ∧
    ∃ v, Imap.Gives w₁ cfg v ∧ Imap.Gives w₂ cfg v ∧
      (v = .up ↔ asciiBytes "* OK" <+: cut₁.bytes ∧
        (0x0A ∈ cut₁.bytes ∨ 512 ≤ cut₁.bytes.length ∨ cut₁.finish.isOk)) := by
  refine ⟨fun cut => ⟨cut.run_readGreetingLine, cut.length_taken_le, cut.length_takenBytes_lt⟩,
    ⟨verdictOf "220" cut₁.bytes cut₁.finish, greetingProbe_gives beginning_220 h₁, ?_,
      verdictOf_eq_up_iff⟩,
    ⟨verdictOf "* OK" cut₁.bytes cut₁.finish, greetingProbe_gives beginning_ok h₁, ?_,
      verdictOf_eq_up_iff⟩⟩
  · rw [hbytes, hfinish]
    exact greetingProbe_gives beginning_220 h₂
  · rw [hbytes, hfinish]
    exact greetingProbe_gives beginning_ok h₂

/-- A read of a text, after some time. -/
def readOf (millis : ℕ) (text : String)
    (h : asciiBytes text ≠ [] ∧ (asciiBytes text).length ≤ 128) : ℕ × Chunk :=
  (millis, ⟨asciiBytes text, h.1, h.2⟩)

/-- A greeting in one piece, and in two. -/
def oneRead : Cut := ⟨[readOf 20 "220 mail\r\n" (by decide)], 0, .ok ()⟩

def twoReads : Cut := ⟨[readOf 20 "22" (by decide), readOf 5 "0 mail\r\n" (by decide)], 0, .ok ()⟩

/-- A world in which the peer sends this stream. -/
def mailWorld (cut : Cut) : World Decimal :=
  { silentWorld 0 with connect := fun _ => ExceptT.mk (.ready 3 (.ok ())), stream := cut.stream }

def mailConfig : ProbeConfig Decimal :=
  { ProbeConfig.default with
    name := "mail", probeType := .smtp, target := "mail.example.com:25", timeoutSecs := 2 }

theorem greeting_verdict_split :
    ∃ v, Smtp.Gives (mailWorld oneRead) mailConfig v ∧
      Smtp.Gives (mailWorld twoReads) mailConfig v ∧ v = .up := by
  have hone : Serves (mailWorld oneRead) mailConfig oneRead :=
    ⟨rfl, 3, 20, _, rfl, rfl, by decide⟩
  have htwo : Serves (mailWorld twoReads) mailConfig twoReads :=
    ⟨rfl, 3, 25, _, rfl, rfl, by decide⟩
  obtain ⟨-, ⟨v, hv₁, hv₂, hup⟩, -⟩ := greeting_verdict hone htwo (by decide) rfl
  exact ⟨v, hv₁, hv₂, hup.mpr ⟨by decide, .inl (by decide)⟩⟩

end Huginn.Probes
