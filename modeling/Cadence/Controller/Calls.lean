import Cadence.Controller.Basic

/-!
# Cadence.Controller.Calls — answering calls

Each call is answered at once and as a whole.  A call that is refused leaves the run as it was.
-/

namespace Cadence.Controller

variable {A : Assembly}

/-! ### The engine -/

/-- Loads a fresh engine in place of the one there was, until the worker is launched. -/
def startEngine (script : Engine.Script) (w : Controller A) : Outcome Error Unit × Controller A :=
  if w.launch.isSome then (.error .alreadyLaunched, w)
  else
    let (made, source) := A.load script w.source
    let w := { w with source }
    match made with
    | .ok g => (.ok (), ({ w with engine := some g }.note (.load script true)).apply .engineLoaded)
    | .error e => (.error (.engine e), w.note (.load script false))
    | .panicked p => (.panicked p, w.note (.load script false))

/-- Asks the engine for a text. -/
def query (c : Engine.Call) (w : Controller A) : Outcome Error c.Value × Controller A :=
  match w.engine with
  | none => (.error .engineNotStarted, w)
  | some g =>
    let (reply, g) := Engine.call c g
    (reply.mapError .engine, { w with engine := some g }.note (.query ⟨c, reply⟩))

/-! ### The run -/

/-- Claims the single launch. -/
def claim (l : Launch) (w : Controller A) : Except Error Unit × Controller A :=
  if w.launch.isSome then (.error .alreadyExecuted, w)
  else if w.engine.isNone then (.error .engineNotStarted, w)
  else (.ok (), { w with launch := some l })

/-- Finds a thread for the worker.  One of its own has to be started; the caller's is there. -/
def findThread (l : Launch) (w : Controller A) : Except String Unit × Controller A :=
  match l with
  | .spawned => (A.spawn w.attempts, { w with attempts := w.attempts + 1 })
  | .borrowed _ => (.ok (), w)

/-- Launches the worker.  If there is no thread for it, the claim is taken back. -/
def launchOn (l : Launch) (w : Controller A) : Except Error Unit × Controller A :=
  match w.claim l with
  | (.error e, w) => (.error e, w)
  | (.ok (), w) =>
    let (found, w) := w.findThread l
    match found with
    | .ok () => (.ok (), { w with phase := .starting }.note (.launch l))
    | .error reason => (.error (.spawn reason), { w with launch := none })

/-- Lets the parked worker through; answers whether there was one to let through. -/
def resume (w : Controller A) : Bool × Controller A :=
  let (granted, gate) := w.gate.release
  (granted, { w with gate }.note (.resume granted))

/-- Asks the worker to stop at its next gate. -/
def stop (w : Controller A) : Controller A := { w with cancelled := true }.note .stop

/-- Sets the cadence for the next gate. -/
def setMode (m : Mode) (w : Controller A) : Controller A := { w with mode := m }.note (.setMode m)

/-- Sets the cadence that a tag names. -/
def setModeTag (tag : String) (w : Controller A) : Except Error Mode × Controller A :=
  match Mode.ofTag tag with
  | .ok m => (.ok m, w.setMode m)
  | .error e => (.error (.unknownMode e), w)

/-- Whether the worker waits at the gate. -/
def isSuspended (w : Controller A) : Bool := w.gate.parked

/-- The name of the thread the worker runs on. -/
def threadName (w : Controller A) : String :=
  match w.launch with
  | some (.borrowed thread) => thread
  | _ => w.config.workerName

/-! ### Subscribers -/

/-- Registers an observer; answers whether it was absent. -/
def addSubscriber (i : A.Id) (w : Controller A) : Bool × Controller A :=
  ((w.registry.add (.observer i)).1, { w with registry := (w.registry.add (.observer i)).2 })

/-- Takes an observer off; answers whether it was present. -/
def removeSubscriber (i : A.Id) (w : Controller A) : Bool × Controller A :=
  ((w.registry.remove (.observer i)).1, { w with registry := (w.registry.remove (.observer i)).2 })

/-! ### Channels -/

/-- Registers a new channel and answers its number. -/
def subscribeChannel (w : Controller A) : Except Payload Nat × Controller A :=
  match Channel.create w.config.eventCapacity with
  | .error p => (.error p, w)
  | .ok ch =>
    let k := w.channels.length
    (.ok k, { w with
      channels := w.channels ++ [ch]
      registry := (w.registry.add (.channel k)).2 })

/-- Takes the oldest notification out of a channel. -/
def receive (k : Nat) (w : Controller A) : Option Notification × Controller A :=
  match w.channels[k]? with
  | none => (none, w)
  | some ch => (ch.receive.1, { w with channels := w.channels.set k ch.receive.2 })

/-- Drops the receiver of a channel; its sender stays registered. -/
def dropReceiver (k : Nat) (w : Controller A) : Controller A :=
  { w with channels := w.channels.modify k Channel.close }

/-! ### Any call -/

/-- Answers a call. -/
def call : (c : Call A.Id) → Controller A → c.Answer A.Dom × Controller A
  | .startEngine script, w => w.startEngine script
  | .execute, w => w.launchOn .spawned
  | .runBlocking thread, w => w.launchOn (.borrowed thread)
  | .resume, w => w.resume
  | .stop, w => ((), w.stop)
  | .setMode m, w => (m, w.setMode m)
  | .setModeTag tag, w => w.setModeTag tag
  | .mode, w => (w.mode, w)
  | .state, w => (w.state, w)
  | .isSuspended, w => (w.isSuspended, w)
  | .turns, w => (w.turns, w)
  | .facts, w => w.query .facts
  | .agenda, w => w.query .agenda
  | .domain, w => (w.domain, w)
  | .addSubscriber i, w => w.addSubscriber i
  | .removeSubscriber i, w => w.removeSubscriber i
  | .subscriberCount, w => (w.registry.size, w)
  | .threadName, w => (w.threadName, w)

/-- Grants an access. -/
def access : (a : Access A.Id) → Controller A → a.Answer A.Dom × Controller A
  | .call c, w => w.call c
  | .subscribeChannel, w => w.subscribeChannel
  | .receive k, w => w.receive k
  | .dropReceiver k, w => ((), w.dropReceiver k)

/-! ### What only the host can do -/

/-- How the worker's thread ended: a panic that got out of it is all that is known of it then. -/
def threadResult (w : Controller A) : Except Error Unit :=
  match w.died with
  | some _ => .error .workerPanicked
  | none => .ok ()

/-- Waits for the worker's thread and answers how it ended; `none` where that would take forever,
because the worker is parked or held up.  A run on the caller's thread leaves nothing to wait for. -/
def join? (w : Controller A) : Option (Except Error Unit) :=
  match w.launch with
  | some .spawned => if w.isDone then some w.threadResult else none
  | _ => some (.ok ())

/-- What a run on the caller's thread has returned, once it is over. -/
def returned? (w : Controller A) : Option State :=
  match w.launch with
  | some (.borrowed _) => if w.isDone then some w.state else none
  | _ => none

end Cadence.Controller
