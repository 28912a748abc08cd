import Cadence.Domain
import Cadence.Mode

/-!
# Cadence.Controller.Error — misuse of a controller, and failure of a run
-/

namespace Cadence.Controller

/-- Why a call on a controller was refused. -/
inductive Error where
  | engineNotStarted
  | alreadyExecuted
  | alreadyLaunched
  | unknownMode (e : UnknownMode)
  | engine (e : Engine.Error)
  | spawn (reason : String)
  | workerPanicked
deriving DecidableEq, Repr

def Error.message : Error → String
  | engineNotStarted => "Engine not started: call start_engine first"
  | alreadyExecuted =>
    "Controller already executed; create a new controller for another run"
  | alreadyLaunched => "Engine cannot be replaced once the worker has launched"
  | unknownMode e => e.message
  | engine e => "Engine error: " ++ e.message
  | spawn reason => "Failed to spawn worker thread: " ++ reason
  | workerPanicked => "Worker thread panicked"

/-- Why a run ended without disposal. -/
inductive Failure where
  | domain (e : Domain.Error)
  | cancelled
  | engineMissing
  | panicked (p : Payload)
deriving DecidableEq, Repr

def Failure.message : Failure → String
  | domain e => e.message
  | cancelled => "execution cancelled"
  | engineMissing => "engine not started"
  | panicked p => "panic during execution: " ++ p.message

end Cadence.Controller
