import Cadence.Controller.Worker

/-!
# Cadence.Controller.Session — a host and its controller

The host makes one request after another, and between two of them it waits until the worker is at
rest.  Meanwhile it keeps taking notifications out of its channels, so that no channel stays full.
-/

namespace Cadence.Controller

/-- A channel that the host receives from. -/
structure Inbox where
  name : String
  channel : Nat
  /-- What was received and not yet handed on. -/
  arrived : List Notification := []
deriving DecidableEq, Repr

/-- A controller and what its host keeps. -/
structure Session (A : Assembly) where
  controller : Controller A
  inboxes : List Inbox := []
  /-- Whether the end of a run on the caller's thread is still to be collected. -/
  expecting : Bool := false

/-- Requests of the host; an inbox goes by its name. -/
inductive Request (ι : Type) where
  | call (c : Call ι)
  | join
  | blockingResult
  | subscribeChannel (name : String)
  | dropChannel (name : String)
  | received (name : String)

/-- Answers to the host. -/
inductive Response (A : Assembly) where
  | answer (c : Call A.Id) (a : c.Answer A.Dom)
  | joined (r : Except Error Unit)
  /-- Waiting would not end now. -/
  | wouldBlock
  /-- The run on the caller's thread is over, in a state. -/
  | returned (s : State)
  /-- Whether a run on the caller's thread is still going on. -/
  | pending (b : Bool)
  | done
  | panicked (p : Payload)
  | notices (ns : List Notification)
  | unknownName

namespace Session

variable {A : Assembly}

/-- Takes one notification out of a channel, if one is there. -/
def drain? (s : Session A) : List Inbox → Option (Session A)
  | [] => none
  | box :: rest =>
    match s.controller.receive box.channel with
    | (none, _) => drain? s rest
    | (some n, w) => some { s with
        controller := w
        inboxes := s.inboxes.map fun b =>
          if b.channel = box.channel then { b with arrived := b.arrived ++ [n] } else b }

/-- Lets the worker go on and drains the channels until nothing moves, at most so many times. -/
def rest : Nat → Session A → Session A
  | 0, s => s
  | limit + 1, s =>
    match s.controller.step with
    | some w => rest limit { s with controller := w }
    | none =>
      match s.drain? s.inboxes with
      | some s => rest limit s
      | none => s

/-- Collects the end of a run on the caller's thread. -/
def collect (s : Session A) : Response A × Session A :=
  if s.expecting then
    match s.controller.returned? with
    | some state => (.returned state, { s with expecting := false })
    | none => (.pending true, s)
  else (.pending false, s)

/-- Makes a call and lets the worker come to rest.  A run on the caller's thread has an answer only
if it is refused; else its end is awaited. -/
def call (limit : Nat) (c : Call A.Id) (s : Session A) : Response A × Session A :=
  let (a, w) := s.controller.call c
  let s := { s with controller := w }
  match c, a with
  | .runBlocking _, .ok _ => (rest limit { s with expecting := true }).collect
  | c, a => (.answer c a, rest limit s)

/-- The inbox of a name. -/
def inbox? (s : Session A) (name : String) : Option Inbox := s.inboxes.find? (·.name = name)

/-- Opens an inbox on a new channel.  It takes the place of an inbox of the same name, whose receiver
goes away. -/
def openInbox (name : String) (s : Session A) : Response A × Session A :=
  match s.controller.subscribeChannel with
  | (.ok k, w) =>
    let w := match s.inbox? name with
      | some box => w.dropReceiver box.channel
      | none => w
    (.done, { s with
      controller := w
      inboxes := s.inboxes.filter (·.name ≠ name) ++ [{ name, channel := k }] })
  | (.error p, w) => (.panicked p, { s with controller := w })

/-- Serves a request and lets the worker come to rest. -/
def serve (limit : Nat) (r : Request A.Id) (s : Session A) : Response A × Session A :=
  match r with
  | .call c => s.call limit c
  | .join =>
    match s.controller.join? with
    | some r => (.joined r, s)
    | none => (.wouldBlock, s)
  | .blockingResult => s.collect
  | .subscribeChannel name => s.openInbox name
  | .dropChannel name =>
    match s.inbox? name with
    | none => (.unknownName, s)
    | some box => (.done, rest limit { s with controller := s.controller.dropReceiver box.channel })
  | .received name =>
    match s.inbox? name with
    | none => (.unknownName, s)
    | some box => (.notices box.arrived, { s with
        inboxes := s.inboxes.map fun b => if b.name = name then { b with arrived := [] } else b })

end Session

end Cadence.Controller
