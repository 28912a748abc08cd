import Cadence.Domain
import Cadence.Text.Count

/-!
# Cadence.Domain.Scripted — a domain whose conduct is fixed in advance

It is done after a set number of actions, and can be told to fail in set-up, in disposal or in the
action of one turn, or to panic in the action of one turn.
-/

namespace Cadence.Domain

/-- The plan and what has happened so far. -/
structure Scripted where
  /-- The number of actions after which the work is done. -/
  doneAfter : Nat
  failSetup : Option String := none
  /-- The turn whose action fails, counted from one. -/
  failActionAt : Option Nat := none
  failDispose : Option String := none
  /-- The turn whose action panics, counted from one. -/
  panicActionAt : Option Nat := none
  actions : Nat := 0
  setups : Nat := 0
  disposals : Nat := 0
  /-- The facts after the last action that succeeded. -/
  lastFacts : String := ""
deriving DecidableEq, Repr

namespace Scripted

def panicText (turn : Nat) : String := "action exploded on turn " ++ Text.decimal turn

def failText (turn : Nat) : String := "action failed on turn " ++ Text.decimal turn

/-- Ends a hook with a planned failure, or well. -/
def finish (plan : Option String) (d : Scripted) : Engine.Errand (Result Scripted) :=
  match plan with
  | some message => .done (.error (.failed message), d)
  | none => .done (.ok (), d)

/-- The action of the turn whose number is the count of actions.  A planned panic comes first. -/
def act (d : Scripted) : Engine.Errand (Result Scripted) :=
  if d.panicActionAt = some d.actions then .done (.panicked (.text (panicText d.actions)), d)
  else if d.failActionAt = some d.actions then .done (.error (.failed (failText d.actions)), d)
  else query .facts d fun facts => .done (.ok (), { d with lastFacts := facts })

instance : Domain Scripted where
  hook
    | .setup, d => finish d.failSetup { d with setups := d.setups + 1 }
    | .action, d => act { d with actions := d.actions + 1 }
    | .dispose, d => finish d.failDispose { d with disposals := d.disposals + 1 }
  hasDone d := .ok (d.doneAfter ≤ d.actions)

end Scripted

end Cadence.Domain
