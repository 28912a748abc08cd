import Cadence.Engine

/-!
# Cadence.Domain — what a run is for

A domain gives a run its meaning: it is set up once, acts after every advance of the engine, says
when the work is done, and is disposed at the end.  Each hook borrows the engine, so it is an
errand on it; it may fail or panic, and what it has changed of the domain by then stays changed.
-/

namespace Cadence

namespace Domain

/-- Why a hook failed: the engine did, or the domain itself. -/
inductive Error where
  | engine (e : Engine.Error)
  | failed (message : String)
deriving DecidableEq, Repr

def Error.message : Error → String
  | engine e => e.message
  | failed m => m

/-- The hooks that borrow the engine. -/
inductive Hook where
  | setup
  | action
  | dispose
deriving DecidableEq, Repr

/-- The end of a hook: how it ended, and the domain after it. -/
abbrev Result (δ : Type) : Type := Outcome Error Unit × δ

end Domain

/-- Domains whose state is `δ`. -/
class Domain (δ : Type) where
  /-- What a hook does. -/
  hook : Domain.Hook → δ → Engine.Errand (Domain.Result δ)
  /-- Whether the work is done; asking may panic. -/
  hasDone : δ → Except Payload Bool

namespace Domain

/-- Asks the engine for a text and goes on with it; an error or a panic of the engine ends the hook
and leaves the domain as it is. -/
def query {δ : Type} (c : Engine.Call) (d : δ) (next : c.Value → Engine.Errand (Result δ)) :
    Engine.Errand (Result δ) :=
  .ask c fun
    | .ok value => next value
    | .error e => .done (.error (.engine e), d)
    | .panicked p => .done (.panicked p, d)

end Domain

end Cadence
