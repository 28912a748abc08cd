import Cadence.Dialogue
import Cadence.Lifecycle
import Cadence.Outcome
import Cadence.Registry

/-!
# Cadence.Gathering — subscribers and their updates

A gathering is a registry together with what its subscribers remember.  A notification goes to the
members there were when its emission began, in their order.  An update may add and remove members
and may panic; a panic is caught, and the others are still served.
-/

namespace Cadence

namespace Gathering

/-- What an update may ask of the set. -/
inductive Call (ι : Type) where
  | add (i : ι)
  | remove (i : ι)
  | size

/-- Whether the set changed, or how many members it has. -/
abbrev Call.Answer {ι : Type} : Call ι → Type
  | add _ => Bool
  | remove _ => Bool
  | size => Nat

/-- Answers what an update asks. -/
def serve {ι : Type} [DecidableEq ι] : (c : Call ι) → Registry ι → c.Answer × Registry ι
  | .add i, r => r.add i
  | .remove i, r => r.remove i
  | .size, r => (r.size, r)

/-- What each subscriber does with a notification: a dialogue with the set, whether it panics in
the end, and what the subscribers remember after it. -/
abbrev Conduct (ι σ : Type) : Type :=
  ι → Notification → σ → Dialogue (Call ι) Call.Answer (Option Payload × σ)

end Gathering

/-- A set of subscribers and what they remember. -/
structure Gathering (ι σ : Type) where
  registry : Registry ι := {}
  crowd : σ

namespace Gathering

variable {ι σ : Type} [DecidableEq ι]

/-- Adds a subscriber; answers whether it was absent. -/
def add (g : Gathering ι σ) (i : ι) : Bool × Gathering ι σ :=
  ((g.registry.add i).1, { g with registry := (g.registry.add i).2 })

/-- Removes a subscriber; answers whether it was present. -/
def remove (g : Gathering ι σ) (i : ι) : Bool × Gathering ι σ :=
  ((g.registry.remove i).1, { g with registry := (g.registry.remove i).2 })

/-- Updates one subscriber; answers whether it did not panic. -/
def update (conduct : Conduct ι σ) (n : Notification) (i : ι) (g : Gathering ι σ) :
    Bool × Gathering ι σ :=
  let ((panic, crowd), registry) := (conduct i n g.crowd).play serve g.registry
  (panic.isNone, ⟨registry, crowd⟩)

/-- Updates subscribers in order, and counts those that did not panic. -/
def updateAll (conduct : Conduct ι σ) (n : Notification) :
    List ι → Gathering ι σ → Nat × Gathering ι σ
  | [], g => (0, g)
  | i :: rest, g =>
    let (calm, g) := g.update conduct n i
    let (count, g) := updateAll conduct n rest g
    (if calm then count + 1 else count, g)

/-- Sends a notification to the members there are now. -/
def emit (conduct : Conduct ι σ) (n : Notification) (g : Gathering ι σ) : Nat × Gathering ι σ :=
  updateAll conduct n g.registry.members g

end Gathering

end Cadence
