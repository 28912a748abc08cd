import Cadence.Console.Command
import Cadence.Controller.Worker
import Cadence.Domain.Quiescence
import Cadence.Wire

/-!
# Cadence.Console — a console on a run

The console prints each notification as a line of JSON, takes commands from lines of input, and ends
with the terminal notification or when told to quit; then it prints the report, if there is one.
When the input ends first, it lets the run go on to its end by itself.  A line that cannot be read,
and an engine that panics over a question, break it off: it leaves at once, without the rest.

Five things can happen to a console in any order: the worker makes a step, a notification arrives, a
line is read, a line cannot be read, the input ends.  Each is a function here, so a session is any
sequence of them.
-/

namespace Cadence

/-- What is printed on the output. -/
inductive Console.Printed where
  | notification (n : Notification)
  /-- Facts or agenda. -/
  | text (s : String)
  | report (r : Domain.Report)
deriving DecidableEq, Repr

/-- The printed text, without the line end after it. -/
def Console.Printed.render : Console.Printed → String
  | .notification n => n.toJson.render
  | .text s => s
  | .report r => r.toJson.render

/-- What breaks a console off. -/
inductive Console.Fault where
  /-- A line of input could not be read, because it is no text or for another reason. -/
  | unreadable (reason : String)
  /-- The engine panicked over a question. -/
  | panicked (p : Payload)
deriving DecidableEq, Repr

/-- The parts of the console's controller: any engine, a domain that waits for quiescence, and a
channel as the only subscriber.  There is a thread for its worker; otherwise there is no session. -/
abbrev Console.parts {E S : Type} [Engine E]
    (load : Engine.Script → S → Outcome Engine.Error E × S) : Controller.Assembly where
  Eng := E
  Dom := Domain.Quiescence
  Source := S
  Id := Empty
  Crowd := Unit
  load := load
  react := fun i => nomatch i

/-- A console. -/
structure Console {E S : Type} [Engine E]
    (load : Engine.Script → S → Outcome Engine.Error E × S) where
  controller : Controller (Console.parts load)
  /-- The channel the notifications come through. -/
  events : Nat
  stdout : List Console.Printed := []
  stderr : List String := []
  inputOpen : Bool := true
  /-- Whether the console still waits for something. -/
  isWaiting : Bool := true
  /-- What it was broken off by. -/
  fault : Option Console.Fault := none

namespace Console

variable {E S : Type} [Engine E] {load : Engine.Script → S → Outcome Engine.Error E × S}

def print (k : Console load) (p : Printed) : Console load := { k with stdout := k.stdout ++ [p] }

def complain (k : Console load) (s : String) : Console load := { k with stderr := k.stderr ++ [s] }

/-- Leaves at once. -/
def breakOff (k : Console load) (f : Fault) : Console load :=
  { k with isWaiting := false, fault := some f }

/-- What is said when a run is set up and waits. -/
def hint : String := "suspended; type `resume` to advance, `help` for commands"

/-! ### What can happen -/

/-- The worker makes a step, if it can. -/
def work? (k : Console load) : Option (Console load) :=
  k.controller.step.map fun w => { k with controller := w }

/-- A notification is printed; a terminal one ends the waiting. -/
def receive (k : Console load) (n : Notification) : Console load :=
  let k := k.print (.notification n)
  if n.isTerminal then { k with isWaiting := false }
  else if n = .setupDone && k.controller.mode.isGated then k.complain hint
  else k

/-- A notification arrives, if one is there and the console still waits. -/
def notice? (k : Console load) : Option (Console load) :=
  if k.isWaiting then
    match k.controller.receive k.events with
    | (none, _) => none
    | (some n, w) => some (({ k with controller := w } : Console load).receive n)
  else none

/-- A text of the engine is printed, or why there is none; a panic breaks the console off. -/
def printReply (k : Console load) (reply : Outcome Controller.Error String) : Console load :=
  match reply with
  | .ok s => k.print (.text s)
  | .error e => k.complain e.message
  | .panicked p => k.breakOff (.panicked p)

/-- Obeys a command. -/
def obey (k : Console load) (c : Command) : Console load :=
  match c with
  | .resume =>
    let (released, w) := k.controller.resume
    let k := { k with controller := w }
    if released then k else k.complain "worker is not suspended"
  | .mode tag =>
    let (r, w) := k.controller.setModeTag tag
    let k := { k with controller := w }
    match r with
    | .ok m => k.complain ("mode set to " ++ m.tag)
    | .error e => k.complain e.message
  | .facts =>
    let (r, w) := k.controller.query .facts
    ({ k with controller := w } : Console load).printReply r
  | .agenda =>
    let (r, w) := k.controller.query .agenda
    ({ k with controller := w } : Console load).printReply r
  | .state =>
    k.complain
      (k.controller.state.describe ++ " (" ++ Text.decimal k.controller.turns ++ " turns)")
  | .stop => { k with controller := k.controller.stop }
  | .quit => { k with controller := k.controller.stop, isWaiting := false }
  | .help => k.complain help
  | .unknown verb => k.complain ("unknown command `" ++ verb ++ "`; type `help`")

/-- A line is read. -/
def line (k : Console load) (s : String) : Console load :=
  if k.isWaiting && k.inputOpen then k.obey (.ofLine s) else k

/-- A line cannot be read. -/
def misread (k : Console load) (reason : String) : Console load :=
  if k.isWaiting && k.inputOpen then k.breakOff (.unreadable reason) else k

/-- The input ends: the run goes on in mode `run`. -/
def endInput (k : Console load) : Console load :=
  if k.isWaiting && k.inputOpen then
    { k with controller := ((k.controller.setMode .run).resume).2, inputOpen := false }
  else k

/-! ### Sessions -/

/-- What can happen to a console. -/
inductive Move where
  | work
  | notice
  | line (s : String)
  | misread (reason : String)
  | endInput
deriving DecidableEq, Repr

/-- The console after a move; a move that cannot be made leaves it. -/
def move (k : Console load) : Move → Console load
  | .work => k.work?.getD k
  | .notice => k.notice?.getD k
  | .line s => k.line s
  | .misread reason => k.misread reason
  | .endInput => k.endInput

/-- The console after several moves. -/
def moves (k : Console load) (ms : List Move) : Console load := ms.foldl move k

/-- Lets notifications arrive and the worker go on until nothing moves, at most so many times. -/
def rest : Nat → Console load → Console load
  | 0, k => k
  | limit + 1, k =>
    match k.notice? with
    | some k => rest limit k
    | none =>
      match k.work? with
      | some k => rest limit k
      | none => k

/-- The end: nobody listens any more, the worker runs out, and the report is printed.  A console that
was broken off does not get that far. -/
def close (limit : Nat) (k : Console load) : Console load :=
  match k.fault with
  | some _ => k
  | none =>
    let w := (k.controller.dropReceiver k.events).settle limit
    let k := { k with controller := w }
    match w.domain.report with
    | some r => k.print (.report r)
    | none => k

/-- The lines of some texts, each of which is ended. -/
def linesOf (texts : List String) : List String :=
  (Text.lines (texts.flatMap fun s => s.toList ++ ['\n'])).map String.ofList

/-- Reads input piece by piece, each after everything has come to rest, until the run has ended or a
command was the last.  The lines of a piece, which most often is one line, are all there at once and
are read before the worker gets on.  Answers how many pieces were read. -/
def readPieces (limit : Nat) : List String → Console load → Nat × Console load
  | [], k => (0, rest limit k)
  | s :: later, k =>
    let k := rest limit k
    if k.isWaiting then
      let c := Command.ofLine s
      let k := (linesOf [s]).foldl line k
      if c.isLast then (1, rest limit k)
      else
        let (n, k) := readPieces limit later k
        (n + 1, k)
    else (0, k)

/-- A whole session over the given input: how many pieces were read, and the console at its end. -/
def session (limit : Nat) (pieces : List String) (k : Console load) : Nat × Console load :=
  let (n, k) := k.readPieces limit pieces
  (n, (rest limit k.endInput).close limit)

end Console

end Cadence
