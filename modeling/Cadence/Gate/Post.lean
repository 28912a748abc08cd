import Cadence.Gate

/-!
# Cadence.Gate.Post — a gate, its cancellation and one worker

The post is driven by single acts in any order: the worker arrives, someone releases, wakes or
cancels, and the parked worker looks up.  Waking changes nothing by itself; it makes the worker
look up, which it may also do unbidden.  `Post.serve` answers requests made of several acts, and
after each of them the parked worker has had time to look up.
-/

namespace Cadence.Gate

/-- A gate with its cancellation flag, and how often a worker was parked at it. -/
structure Post where
  gate : Gate := {}
  cancelled : Bool := false
  parkings : Nat := 0
deriving DecidableEq, Repr, Inhabited

namespace Post

/-- The single acts. -/
inductive Act where
  | park (gated : Bool)
  | release
  | wake
  | cancel
  | look
deriving DecidableEq, Repr

/-- What is seen of an act. -/
inductive Sight where
  /-- Nothing to be seen. -/
  | none
  /-- A worker is parked already, so no other one arrives. -/
  | busy
  /-- A release, and whether a permit was handed over. -/
  | released (granted : Bool)
  /-- The worker left. -/
  | left (exit : Exit)
deriving DecidableEq, Repr

/-- The exit, if there was one. -/
def Sight.ofExit : Option Exit → Sight
  | some e => left e
  | Option.none => none

/-- One act. -/
def act (p : Post) : Act → Sight × Post
  | .park gated =>
    if p.gate.parked then (.busy, p)
    else
      let (exit, gate) := p.gate.arrive p.cancelled gated
      (.ofExit exit, { p with gate, parkings := if gate.parked then p.parkings + 1 else p.parkings })
  | .release =>
    let (granted, gate) := p.gate.release
    (.released granted, { p with gate })
  | .wake => (.none, p)
  | .cancel => (.none, { p with cancelled := true })
  | .look =>
    if p.gate.parked then
      let (exit, gate) := p.gate.look p.cancelled
      (.ofExit exit, { p with gate })
    else (.none, p)

/-- Acts one after another, with what is seen of each. -/
def run (p : Post) : List Act → List Sight × Post
  | [] => ([], p)
  | a :: rest =>
    let (sight, p) := p.act a
    let (sights, p) := p.run rest
    (sight :: sights, p)

theorem run_append (p : Post) (first second : List Act) :
    p.run (first ++ second) =
      ((p.run first).1 ++ ((p.run first).2.run second).1, ((p.run first).2.run second).2) := by
  induction first generalizing p with
  | nil => simp [run]
  | cons a rest ih => simp [run, ih]

/-- Requests made of several acts. -/
inductive Request where
  | park (gated : Bool)
  | release (times : Nat)
  | releaseThenCancel
  | wake
  | cancel
deriving DecidableEq, Repr

/-- The acts of a request; at the end the worker looks up. -/
def Request.acts : Request → List Act
  | park gated => [.park gated, .look]
  | release times => List.replicate times .release ++ [.look]
  | releaseThenCancel => [.release, .cancel, .wake, .look]
  | wake => [.wake, .look]
  | cancel => [.cancel, .wake, .look]

/-- Serves a request. -/
def serve (p : Post) (r : Request) : List Sight × Post := p.run r.acts

/-- The answers to the releases among the sights. -/
def grants (sights : List Sight) : List Bool :=
  sights.filterMap fun
    | .released granted => some granted
    | _ => none

/-- The exit among the sights. -/
def exit? (sights : List Sight) : Option Exit :=
  sights.findSome? fun
    | .left exit => some exit
    | _ => Option.none

end Post

end Cadence.Gate
