import Cadence.Controller.Observer
import Cadence.Controller.Session
import Cadence.Engine.Catalogue
import Cadence.Engine.Faulty
import Cadence.Engine.Memory

/-!
# Cadence.Controller.Bench — controllers for trying things out

On the bench a controller runs engines in memory with planned faults, from a catalogue, and is
watched by observers that act by rules.  The domain is left open.
-/

namespace Cadence.Controller.Bench

/-- The engines of the bench. -/
abbrev BenchEngine : Type := Engine.Faulty Engine.Memory

/-- The parts of a bench; `observers` gives each name its character. -/
abbrev parts (δ : Type) [Domain δ] (observers : String → Observer String) : Assembly where
  Eng := BenchEngine
  Dom := δ
  Source := Engine.Catalogue BenchEngine
  Id := String
  Crowd := Notebook String δ
  load := Engine.Catalogue.load
  react := fun i => (observers i).react i

variable {δ : Type} [Domain δ] {observers : String → Observer String}

/-- A new controller with some of the observers registered, in order. -/
def setUp (config : Config) (catalogue : Engine.Catalogue BenchEngine) (domain : δ)
    (registered : List String) : Session (parts δ observers) :=
  let w : Controller (parts δ observers) := .create config catalogue domain {}
  { controller := registered.foldl (fun w i => (w.addSubscriber i).2) w }

/-- The counters of the engine in memory that was loaded last. -/
def counters? (w : Controller (parts δ observers)) : Option Engine.Counters :=
  w.engine.map fun g => g.inside.counters

/-- The session with empty pages in the observers' notebook. -/
def turnPage (s : Session (parts δ observers)) : Session (parts δ observers) :=
  { s with controller := { s.controller with crowd := s.controller.crowd.turnPage } }

end Cadence.Controller.Bench
