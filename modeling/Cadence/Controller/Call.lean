import Cadence.Controller.Error
import Cadence.Lifecycle

/-!
# Cadence.Controller.Call — what a controller can be asked, and the parts it is made of

The calls are the same for the host and for a subscriber that calls back while it is notified.
Each has answers of its own type.  `Assembly` collects what a controller is made of and leaves all
of it open: the engine, where engines come from, whether a thread can be started, the domain, and
what the subscribers do.
-/

namespace Cadence.Controller

/-- Calls on a controller; `ι` identifies subscribers. -/
inductive Call (ι : Type) where
  /-- Load a fresh engine with a script. -/
  | startEngine (script : Engine.Script)
  /-- Launch the worker on a thread of its own. -/
  | execute
  /-- Launch the worker on the calling thread, which has a name. -/
  | runBlocking (thread : String)
  /-- Let the parked worker through. -/
  | resume
  /-- Cancel at the next gate. -/
  | stop
  | setMode (m : Mode)
  | setModeTag (tag : String)
  | mode
  | state
  | isSuspended
  | turns
  | facts
  | agenda
  /-- Read the domain. -/
  | domain
  | addSubscriber (i : ι)
  | removeSubscriber (i : ι)
  | subscriberCount
  /-- The name of the thread the worker runs on. -/
  | threadName
deriving DecidableEq, Repr

/-- The answers to a call; `δ` is the type of the domain. -/
abbrev Call.Answer {ι : Type} (δ : Type) : Call ι → Type
  | startEngine _ => Outcome Error Unit
  | execute => Except Error Unit
  | runBlocking _ => Except Error Unit
  | resume => Bool
  | stop => Unit
  | setMode _ => Mode
  | setModeTag _ => Except Error Mode
  | mode => Mode
  | state => State
  | isSuspended => Bool
  | turns => Nat
  | facts => Outcome Error String
  | agenda => Outcome Error String
  | domain => δ
  | addSubscriber _ => Bool
  | removeSubscriber _ => Bool
  | subscriberCount => Nat
  | threadName => String

/-- What can be done with a controller that is at hand: call it, or use a channel of notifications. -/
inductive Access (ι : Type) where
  | call (c : Call ι)
  /-- Open a channel; it is answered with its number. -/
  | subscribeChannel
  | receive (k : Nat)
  /-- Drop the receiver of a channel. -/
  | dropReceiver (k : Nat)
deriving DecidableEq, Repr

/-- What comes of an access; `δ` is the type of the domain. -/
abbrev Access.Answer {ι : Type} (δ : Type) : Access ι → Type
  | call c => c.Answer δ
  | subscribeChannel => Except Payload Nat
  | receive _ => Option Notification
  | dropReceiver _ => Unit

/-- What a subscriber does when it is notified: one access to the controller after another, then
whether it panics, and what the subscribers remember. -/
abbrev Reaction (ι δ γ : Type) : Type := Dialogue (Access ι) (Access.Answer δ) (Option Payload × γ)

/-- The parts of a controller. -/
structure Assembly where
  /-- Engines. -/
  Eng : Type
  /-- Domains. -/
  Dom : Type
  /-- Where engines come from. -/
  Source : Type
  /-- The names of subscribers. -/
  Id : Type
  /-- What the subscribers remember. -/
  Crowd : Type
  [engine : Engine Eng]
  [domain : Domain Dom]
  [ids : DecidableEq Id]
  /-- Loads an engine with a script. -/
  load : Engine.Script → Source → Outcome Engine.Error Eng × Source
  /-- What comes of the `n`-th attempt to start a thread for the worker: nothing, or why there is none. -/
  spawn : Nat → Except String Unit := fun _ => .ok ()
  /-- What a subscriber does with a notification. -/
  react : Id → Notification → Crowd → Reaction Id Dom Crowd

attribute [instance] Assembly.engine Assembly.domain Assembly.ids

end Cadence.Controller
