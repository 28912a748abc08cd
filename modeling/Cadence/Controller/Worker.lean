import Cadence.Controller.Calls

/-!
# Cadence.Controller.Worker — the run, step by step

The run is: reset, set up, then turns, then dispose.  Before each turn the domain is asked whether
it is done and the cadence whether to wait at the gate; a turn advances the engine and lets the
domain act.  Whatever goes wrong on the way ends the run with one failure.

`step` is one step of the worker: a delivery that is due, or else the next phase.  It answers `none`
where the worker cannot go on by itself, because it is not launched, parked, held up at a full
channel, or finished.
-/

namespace Cadence.Controller

variable {A : Assembly}

/-! ### Calls of the worker -/

/-- Calls the engine. -/
def ask (c : Engine.Call) (w : Controller A) : Outcome Failure c.Value × Controller A :=
  match w.engine with
  | none => (.error .engineMissing, w)
  | some g =>
    let (reply, g) := Engine.call c g
    (reply.mapError fun e => .domain (.engine e),
      { w with engine := some g }.note (.engine ⟨c, reply⟩))

/-- Lends the engine to a hook of the domain. -/
def callHook (h : Domain.Hook) (w : Controller A) : Outcome Failure Unit × Controller A :=
  match w.engine with
  | none => (.error .engineMissing, w)
  | some g =>
    let ((ended, domain), g, log) := Engine.perform (Domain.hook h w.domain) g
    (ended.mapError .domain, { w with
      engine := some g
      domain := domain
      journal := .hook h ended :: (log.reverse.map .lent ++ w.journal) })

/-- Advances the engine as a mode asks. -/
def advance (m : Mode) (w : Controller A) : Outcome Failure Unit × Controller A :=
  if m.isSingleStep then
    let (r, w) := w.ask .step
    (r.map fun _ => (), w)
  else
    let (r, w) := w.ask .run
    (r.map fun _ => (), w)

/-! ### Phases -/

/-- Resets the engine and sets the domain up. -/
def start (w : Controller A) : Outcome Failure Phase × Controller A :=
  Outcome.follow (w.ask .reset) fun _ w =>
    Outcome.follow (w.callHook .setup) fun _ w => (.ok .checking, w.apply .setupCompleted)

/-- Asks the domain whether it is done. -/
def check (w : Controller A) : Outcome Failure Phase × Controller A :=
  let answer := Domain.hasDone w.domain
  let w := w.note (.hasDone answer)
  match answer with
  | .ok true => (.ok .disposing, w)
  | .ok false => (.ok .approaching, w)
  | .error p => (.panicked p, w)

/-- Lets the worker past the gate, under the mode there is now. -/
def pass (w : Controller A) : Outcome Failure Phase × Controller A :=
  (.ok (.advancing w.mode), w.note (.passed w.mode))

/-- Comes up to the gate: a cancelled run ends here, a free one goes on. -/
def approach (w : Controller A) : Outcome Failure Phase × Controller A :=
  if w.cancelled then (.error .cancelled, w)
  else if w.mode.isGated then (.ok .arriving, w)
  else w.pass

/-- Goes where an exit from the gate leads. -/
def leave (exit : Gate.Exit) (w : Controller A) : Outcome Failure Phase × Controller A :=
  match exit with
  | .resumed => w.pass
  | .ungated => w.pass
  | .cancelled => (.error .cancelled, w)

/-- Enters the gate, where cancellation and cadence are looked at again. -/
def arrive (w : Controller A) : Outcome Failure Phase × Controller A :=
  let (exit, gate) := w.gate.arrive w.cancelled w.mode.isGated
  let w := { w with gate }
  match exit with
  | some exit => w.leave exit
  | none => (.ok .parked, w.apply .gateParked)

/-- Looks up at the gate; `none` if the worker has to stay. -/
def look? (w : Controller A) : Option (Outcome Failure Phase × Controller A) :=
  let (exit, gate) := w.gate.look w.cancelled
  exit.map { w with gate }.leave

/-- Runs a turn under a mode. -/
def turn (m : Mode) (w : Controller A) : Outcome Failure Phase × Controller A :=
  let w := w.apply .turnStarted
  let w := { w with turns := w.turns + 1 }
  Outcome.follow (w.advance m) fun _ w =>
    Outcome.follow (w.callHook .action) fun _ w => (.ok .checking, w.apply .turnCompleted)

/-- Disposes the domain. -/
def finish (w : Controller A) : Outcome Failure Phase × Controller A :=
  Outcome.follow (w.callHook .dispose) fun _ w =>
    (.ok .finished, (w.apply .disposed).note (.ended none))

/-- What the worker does in its phase; `none` if nothing can be done. -/
def proceed? (w : Controller A) : Option (Outcome Failure Phase × Controller A) :=
  match w.phase with
  | .idle => none
  | .starting => some w.start
  | .checking => some w.check
  | .approaching => some w.approach
  | .arriving => some w.arrive
  | .parked => w.look?
  | .advancing m => some (w.turn m)
  | .disposing => some w.finish
  | .finished => none

/-- A panic of the engine or the domain is contained: it is a failure of the run. -/
def contain : Outcome Failure Phase → Outcome Failure Phase
  | .ok p => .ok p
  | .error f => .error f
  | .panicked p => .error (.panicked p)

theorem contain_ne_panicked (r : Outcome Failure Phase) (p : Payload) : contain r ≠ .panicked p := by
  cases r <;> simp [contain]

/-- Goes on to the next phase, or ends the run with a failure.  A panic that was not contained would
end the thread and nothing else. -/
def conclude (r : Outcome Failure Phase × Controller A) : Controller A :=
  match contain r.1 with
  | .ok p => { r.2 with phase := p }
  | .error f => { (r.2.apply (.faulted f.message)).note (.ended (some f)) with phase := .finished }
  | .panicked p => { r.2 with phase := .finished, died := some p }

/-! ### Deliveries -/

/-- Notifies one subscriber.  An observer may call back and may panic, which is caught; a channel
takes the notification, or holds the worker up.

This is a worker outside any asynchronous runtime, as one on a thread of its own always is.  On a
thread of a runtime, which only the caller of `runBlocking` can have, a full channel drops what comes;
that way of sending is `Channel.trySend`, and no run of a controller takes it. -/
def tell (s : Subscriber A.Id) (n : Notification) (w : Controller A) : Controller A :=
  match s with
  | .observer i =>
    let ((panic, crowd), w) := (A.react i n w.crowd).play access w
    { w with crowd }.note (.told s n panic)
  | .channel k =>
    { w with channels := w.channels.modify k fun ch => (ch.send n).2 }.note (.told s n none)

/-- One step of the worker. -/
def step (w : Controller A) : Option (Controller A) :=
  if w.isHeldUp then none
  else
    match w.outbox with
    | (s, n) :: rest => some { w.tell s n with outbox := rest }
    | [] => w.proceed?.map conclude

/-- Steps until the worker comes to rest, at most so many times. -/
def settle : Nat → Controller A → Controller A
  | 0, w => w
  | limit + 1, w =>
    match w.step with
    | none => w
    | some w => settle limit w

/-- Whether the worker cannot go on by itself. -/
def AtRest (w : Controller A) : Prop := w.step = none

end Cadence.Controller
