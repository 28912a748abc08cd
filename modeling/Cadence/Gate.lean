/-!
# Cadence.Gate — where the worker waits between turns

The gate has two flags: whether the worker is parked, and whether it has been granted a permit.  A
permit is handed only to a parked worker, one at a time, so that none is ever kept for later.
-/

namespace Cadence

/-- How the worker left the gate. -/
inductive Gate.Exit where
  /-- A permit let it through. -/
  | resumed
  /-- The cadence did not ask for waiting any more when it arrived. -/
  | ungated
  /-- The run was cancelled. -/
  | cancelled
deriving DecidableEq, Repr

/-- The two flags. -/
structure Gate where
  parked : Bool := false
  permit : Bool := false
deriving DecidableEq, Repr, Inhabited

namespace Gate

/-- The worker arrives.  It goes off at once if the run is cancelled or the cadence does not gate;
otherwise it is parked without a permit. -/
def arrive (g : Gate) (cancelled gated : Bool) : Option Exit × Gate :=
  if cancelled then (some .cancelled, g)
  else if gated then (none, ⟨true, false⟩)
  else (some .ungated, g)

/-- Hands a parked worker its permit; answers whether it did. -/
def release (g : Gate) : Bool × Gate :=
  if g.parked && !g.permit then (true, { g with permit := true }) else (false, g)

/-- A parked worker looks up.  A permit counts before a cancellation; without either it stays. -/
def look (g : Gate) (cancelled : Bool) : Option Exit × Gate :=
  if g.permit then (some .resumed, ⟨false, false⟩)
  else if cancelled then (some .cancelled, ⟨false, false⟩)
  else (none, g)

end Gate

end Cadence
