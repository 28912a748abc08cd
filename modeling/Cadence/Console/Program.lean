import Cadence.Console
import Cadence.Engine.StandIn
import Cadence.Engine.Workspace

/-!
# Cadence.Console.Program — the console as a program

The program takes the path of a script as its argument and its settings from the environment.  It
ends with code 2 if there is no argument, 1 if the run could not begin or the console was broken off,
and 0 otherwise.
-/

namespace Cadence.Console

open Engine

/-- How a program ended: its output, its complaints and its exit code. -/
structure Exit where
  stdout : List String := []
  stderr : List String := []
  code : Nat
  /-- How many input lines were read. -/
  read : Nat := 0
deriving DecidableEq, Repr

def usage : String := "usage: clips-driver <script.clp>"

/-- The name of a kind of engine failure. -/
def kindName : ErrorKind → String
  | .load => "Load"
  | .command => "Command"
  | .io => "Io"
  | .protocol => "Protocol"

/-- An engine failure with its parts named. -/
def showEngineError (e : Engine.Error) : String :=
  "EngineError \x7b kind: " ++ kindName e.kind ++ ", message: " ++ Text.quoted e.message ++ " \x7d"

/-- A controller's refusal with its parts named. -/
def showError : Controller.Error → String
  | .engineNotStarted => "EngineNotStarted"
  | .alreadyExecuted => "AlreadyExecuted"
  | .alreadyLaunched => "AlreadyLaunched"
  | .unknownMode e => "UnknownMode(UnknownMode(" ++ Text.quoted e.tag ++ "))"
  | .engine e => "Engine(" ++ showEngineError e ++ ")"
  | .spawn reason => "Spawn(" ++ reason ++ ")"
  | .workerPanicked => "WorkerPanicked"

/-- What is said of what broke a console off. -/
def Fault.message : Fault → String
  | unreadable reason => reason
  | panicked p => "the question panicked: " ++ p.message

variable {κ : Type} [Child κ]

/-- The console of a launcher. -/
abbrev OfLauncher (κ : Type) [Child κ] : Type := Console (@Launcher.load κ _)

/-- A program that ends before its run begins. -/
def fail (message : String) : Exit := { stderr := linesOf ["Error: " ++ message], code := 1 }

/-- A program that panics on the way. -/
def crash (p : Payload) : Exit := { stderr := linesOf [p.message], code := 101 }

/-- Subscribes, loads the script and launches the worker; answers the console, or how the program
ends, with what is left of the launcher. -/
def launch (config : Config) (launcher : Launcher κ) (script : String) :
    Except (Exit × Launcher κ) (OfLauncher κ) :=
  let w : Controller (parts (@Launcher.load κ _)) := .create config launcher {} ()
  match w.subscribeChannel with
  | (.error p, w) => .error (crash p, w.source)
  | (.ok events, w) =>
    match w.startEngine ⟨script⟩ with
    | (.error e, w) => .error (fail (showError e), w.source)
    | (.panicked p, w) => .error (fail (Fault.panicked p).message, w.source)
    | (.ok (), w) =>
      match w.launchOn .spawned with
      | (.error e, w) => .error (fail (showError e), w.source)
      | (.ok (), w) => .ok { controller := w, events }

/-- The engine that a program talked to last: the one of its run, or one that could not load. -/
def lastEngine (k : OfLauncher κ) : Option (Piped κ) :=
  k.controller.engine.or k.controller.source.discarded

/-- Gets the program ready: the console of its run, or how it ends at once and the engine it talked
to. -/
def prepare (arguments : List String) (env : String → Option String) (workspace : Workspace)
    (child : κ) (marks : Nat → Mark) : Except (Exit × Option (Piped κ)) (OfLauncher κ) :=
  match arguments with
  | [] => .error ({ stderr := linesOf [usage], code := 2 }, none)
  | script :: _ =>
    let config := Config.ofEnv env
    match Launcher.locate config.binary workspace with
    | .error e => .error (fail (showEngineError e), none)
    | .ok binary =>
      match launch config { workspace, binary, child, marks } script with
      | .error (exit, launcher) => .error (exit, launcher.discarded)
      | .ok k => .ok k

/-- How the program ends once its console has. -/
def exitOf (k : OfLauncher κ) (read : Nat) : Exit where
  stdout := linesOf (k.stdout.map Printed.render)
  stderr := linesOf (k.stderr ++ k.fault.toList.map fun f => "Error: " ++ f.message)
  code := if k.fault.isSome then 1 else 0
  read := read

/-- Runs the program on pieces of input: how it ended and the engine it talked to. -/
def run (limit : Nat) (arguments : List String) (env : String → Option String)
    (workspace : Workspace) (child : κ) (marks : Nat → Mark) (input : List String) :
    Exit × Option (Piped κ) :=
  match prepare arguments env workspace child marks with
  | .error ended => ended
  | .ok k =>
    let (read, k) := k.session limit input
    (exitOf k read, lastEngine k)

end Cadence.Console
