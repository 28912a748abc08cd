import Cadence.Gathering

/-!
# Cadence.Gathering.Recorder — subscribers that record or panic

Each subscriber records every notification it gets, or panics on every one.  The log keeps the
notifications of all of them in the order of the calls.
-/

namespace Cadence.Gathering

/-- What a subscriber does with every notification. -/
inductive Habit where
  | record
  /-- Record, as a plain function. -/
  | note
  | panic (p : Payload)
deriving DecidableEq, Repr

/-- The log of who was told what. -/
abbrev Log (ι : Type) : Type := List (ι × Notification)

namespace Log

variable {ι : Type} [DecidableEq ι]

/-- What one subscriber recorded. -/
def of (log : Log ι) (i : ι) : List Notification :=
  log.filterMap fun e => if e.1 = i then some e.2 else none

/-- How many equal notifications one subscriber recorded. -/
def count (log : Log ι) (i : ι) (n : Notification) : Nat := (log.of i).countP (· = n)

/-- Whether one subscriber recorded at least `k`. -/
def hasLength (log : Log ι) (i : ι) (k : Nat) : Bool := k ≤ (log.of i).length

/-- Whether one subscriber recorded a terminal notification. -/
def hasTerminal (log : Log ι) (i : ι) : Bool := (log.of i).any Notification.isTerminal

end Log

/-- The conduct of subscribers with habits. -/
def habitual {ι : Type} (habit : ι → Habit) : Conduct ι (Log ι) := fun i n log =>
  match habit i with
  | .record => .done (none, log ++ [(i, n)])
  | .note => .done (none, log ++ [(i, n)])
  | .panic p => .done (some p, log)

end Cadence.Gathering
