import Cadence.Mode
import Cadence.Text.Count

/-!
# Cadence.Config — settings from the environment

Each setting is read from a variable of its own and falls back to its default alone.
-/

namespace Cadence

/-- The settings of a controller and its console. -/
structure Config where
  /-- The cadence a run begins with. -/
  initialMode : Mode
  /-- The engine's executable, if one is named. -/
  binary : Option String
  /-- How many notifications a channel holds. -/
  eventCapacity : Nat
  /-- The name of the worker's thread. -/
  workerName : String
deriving DecidableEq, Repr

namespace Config

/-- The settings where nothing is said. -/
def standard : Config := ⟨.step, none, 128, "clips-driver"⟩

/-- Reads a capacity: a count above zero, with one plus sign before it or none. -/
def capacity? (text : String) : Option Nat :=
  let digits := match text.toList with
    | '+' :: r => r
    | s => s
  match Text.count? digits with
  | some n => if 0 < n then some n else none
  | none => none

/-- A text that says something. -/
def nonempty (text : String) : Option String := if text = "" then none else some text

/-- The settings that an environment gives. -/
def ofEnv (lookup : String → Option String) : Config where
  initialMode :=
    match (lookup "CLIPS_DRIVER_MODE").map Mode.ofTag with
    | some (.ok m) => m
    | _ => standard.initialMode
  binary := (lookup "CLIPS_BINARY").bind nonempty
  eventCapacity :=
    ((lookup "CLIPS_DRIVER_EVENT_CAPACITY").bind capacity?).getD standard.eventCapacity
  workerName := ((lookup "CLIPS_DRIVER_WORKER_NAME").bind nonempty).getD standard.workerName

end Config

end Cadence
