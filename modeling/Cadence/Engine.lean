import Cadence.Dialogue
import Cadence.Outcome

/-!
# Cadence.Engine — what a rule engine can be asked

An engine fires rules.  It can be reset, run to quiescence, stepped by one rule, and asked for its
facts and its agenda as text.  Each call may fail or panic, and changes the engine in a way that
only the engine knows.
-/

namespace Cadence

namespace Engine

/-- A reference to a rule script.  Only whoever loads it decides whether it is valid. -/
structure Script where
  path : String
deriving DecidableEq, Repr

/-- The kinds of engine failure. -/
inductive ErrorKind where
  /-- The script could not be loaded. -/
  | load
  /-- The engine rejected a command. -/
  | command
  /-- The connection to the engine broke. -/
  | io
  /-- The answer makes no sense. -/
  | protocol
deriving DecidableEq, Repr

/-- Whether the engine is of no further use after such a failure. -/
def ErrorKind.isFatal : ErrorKind → Bool
  | io => true
  | protocol => true
  | _ => false

/-- A failure, with the engine's own text. -/
structure Error where
  kind : ErrorKind
  message : String
deriving DecidableEq, Repr

/-- The calls an engine answers. -/
inductive Call where
  | reset
  | run
  | step
  | facts
  | agenda
deriving DecidableEq, Repr

/-- What a call returns: nothing, how many rules fired, or a text. -/
abbrev Call.Value : Call → Type
  | reset => Unit
  | run => Nat
  | step => Nat
  | facts => String
  | agenda => String

/-- The end of a call. -/
abbrev Reply (c : Call) : Type := Outcome Error c.Value

end Engine

/-- Engines whose state is `σ`. -/
class Engine (σ : Type) where
  /-- Answers a call. -/
  call : (c : Engine.Call) → σ → Engine.Reply c × σ

namespace Engine

/-- A call that an engine answered, with the answer. -/
structure Record where
  call : Call
  reply : Reply call

/-- Answers a call and notes it after the earlier ones. -/
def recorded {σ : Type} [Engine σ] (c : Call) (s : σ × List Record) :
    Reply c × (σ × List Record) :=
  let (reply, g) := Engine.call c s.1
  (reply, (g, s.2 ++ [⟨c, reply⟩]))

/-- What is done with an engine that is lent out: its calls one after another, and a result. -/
abbrev Errand (α : Type) : Type := Dialogue Call Reply α

/-- Does an errand on an engine: the result, the engine after it, and the calls it made. -/
def perform {σ α : Type} [Engine σ] (e : Errand α) (g : σ) : α × σ × List Record :=
  let (a, g, log) := e.play recorded (g, [])
  (a, g, log)

end Engine

end Cadence
