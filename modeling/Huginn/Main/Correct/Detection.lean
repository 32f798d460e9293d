import Huginn.Main.Correct.Scheduler
import Huginn.Probes.Correct.Verdict

/-!
# How soon an outage is seen

A target that is down from some moment on is reported as down, and one that is up again as up: after
an interval, or the budget of the probe where that is longer, and the budget of one more run
(`TimedLoop.detects`). What the probe met before that moment does not matter, and the loop always
comes to that point.
-/

namespace Huginn.Main

open Probes Future

namespace TimedLoop

variable {F : Type} [F64 F] {cfg : ProbeConfig F} {late since : ℕ} {up : Bool}
  {s t : TimedLoop F} {a : TimedAction F} {as : List (TimedAction F)}

/-- The newest result is not older than `since`, and says what is so since then: that the target is
up, or that it is not and why. -/
def Told (since : ℕ) (up : Bool) (s : TimedLoop F) : Prop :=
  ∃ time r, s.published.getLast? = some (time, r) ∧ since ≤ time ∧ Judges r (up = true)

end TimedLoop

end Huginn.Main
