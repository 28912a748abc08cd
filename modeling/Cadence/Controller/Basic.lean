import Cadence.Channel
import Cadence.Config
import Cadence.Controller.Call
import Cadence.Gate
import Cadence.Registry

/-!
# Cadence.Controller.Basic — the state of a controller

A controller owns at most one engine, a domain, and at most one worker, which goes through the
phases of a run.  Between two phases the notifications of the last one are delivered, one subscriber
at a time: `outbox` holds the deliveries still to be made, in order.

The journal is bookkeeping: nothing reads it to decide anything.  It lists, newest first, what the
worker asked of engine and domain, the events and notifications, and the calls that change a run.
-/

namespace Cadence

namespace Controller

/-- Who is registered: an observer, or the sending end of a channel. -/
inductive Subscriber (ι : Type) where
  | observer (i : ι)
  | channel (k : Nat)
deriving DecidableEq, Repr

/-- How the worker was launched. -/
inductive Launch where
  /-- On a thread of its own. -/
  | spawned
  /-- On the thread of the caller. -/
  | borrowed (thread : String)
deriving DecidableEq, Repr

/-- What the worker does next. -/
inductive Phase where
  /-- Nothing: it is not launched. -/
  | idle
  /-- Reset the engine and set the domain up. -/
  | starting
  /-- Ask whether the work is done. -/
  | checking
  /-- Come up to the gate and look at cancellation and cadence. -/
  | approaching
  /-- Enter the gate. -/
  | arriving
  /-- Wait at the gate. -/
  | parked
  /-- Run a turn under a mode. -/
  | advancing (m : Mode)
  /-- Dispose the domain. -/
  | disposing
  /-- Nothing: the run is over. -/
  | finished
deriving DecidableEq, Repr

/-- What has happened. -/
inductive Entry (ι : Type) where
  /-- The loader was asked for an engine; whether it made one. -/
  | load (script : Engine.Script) (made : Bool)
  | launch (l : Launch)
  /-- A call of the worker itself on the engine. -/
  | engine (r : Engine.Record)
  /-- A call on the engine made by a hook. -/
  | lent (r : Engine.Record)
  /-- A call on the engine made for whoever asked the controller. -/
  | query (r : Engine.Record)
  | hook (h : Domain.Hook) (ended : Outcome Domain.Error Unit)
  | hasDone (answer : Except Payload Bool)
  | event (e : Event) (accepted : Bool)
  | emitted (n : Notification) (recipients : List (Subscriber ι))
  /-- A subscriber was notified; whether it panicked. -/
  | told (s : Subscriber ι) (n : Notification) (panic : Option Payload)
  /-- The worker is past the gate and will run a turn under a mode. -/
  | passed (m : Mode)
  | resume (granted : Bool)
  | setMode (m : Mode)
  | stop
  /-- The run ended, by a failure or well. -/
  | ended (failure : Option Failure)

end Controller

open Controller

/-- A controller. -/
structure Controller (A : Assembly) where
  config : Config
  source : A.Source
  engine : Option A.Eng := none
  domain : A.Dom
  mode : Mode
  state : State := .new
  gate : Gate := {}
  /-- Whether the run was cancelled; this is never taken back. -/
  cancelled : Bool := false
  launch : Option Launch := none
  /-- How often a thread was to be started for the worker. -/
  attempts : Nat := 0
  /-- The turns begun, as a natural number; a counter of 64 bits would start again after `2 ^ 64`. -/
  turns : Nat := 0
  registry : Registry (Subscriber A.Id) := {}
  crowd : A.Crowd
  channels : List (Channel Notification) := []
  phase : Phase := .idle
  /-- The panic that the worker's thread ended by, if one got out of it. -/
  died : Option Payload := none
  outbox : List (Subscriber A.Id × Notification) := []
  journal : List (Entry A.Id) := []

namespace Controller

variable {A : Assembly}

/-- A new controller. -/
def create (config : Config) (source : A.Source) (domain : A.Dom) (crowd : A.Crowd) :
    Controller A where
  config := config
  source := source
  domain := domain
  mode := config.initialMode
  crowd := crowd

/-- Notes what has happened. -/
def note (w : Controller A) (e : Entry A.Id) : Controller A := { w with journal := e :: w.journal }

/-- What has happened, oldest first. -/
def history (w : Controller A) : List (Entry A.Id) := w.journal.reverse

/-- Whether the worker waits for a receiver to make room. -/
def isHeldUp (w : Controller A) : Bool := w.channels.any Channel.isHeldUp

/-- Whether the worker is done: the run has ended and its last notification is delivered. -/
def isDone (w : Controller A) : Bool :=
  w.phase = .finished && w.outbox.isEmpty && !w.isHeldUp

/-- Announces a notification to everybody who is registered now. -/
def announce (w : Controller A) (n : Notification) : Controller A :=
  { w with
    outbox := w.outbox ++ w.registry.members.map (·, n)
    journal := .emitted n w.registry.members :: w.journal }

/-- Feeds an event to the state machine; a rejected event changes nothing. -/
def apply (w : Controller A) (e : Event) : Controller A :=
  match w.state.next e with
  | .error _ => w.note (.event e false)
  | .ok t =>
    let w := { w with state := t.state }.note (.event e true)
    match t.notice with
    | none => w
    | some n => w.announce n

end Controller

end Cadence
