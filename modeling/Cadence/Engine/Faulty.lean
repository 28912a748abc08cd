import Cadence.Engine

/-!
# Cadence.Engine.Faulty — an engine with planned faults

A wrapper around an engine counts the calls of each kind.  A fault planned for the n-th call of a
kind ends that call, and the engine inside never hears of it.  A text planned for the n-th facts or
agenda query takes the place of the text that the engine inside returns.
-/

namespace Cadence.Engine

/-- How a planned fault ends its call. -/
inductive Mishap where
  | failure (e : Error)
  | panic (p : Payload)
deriving DecidableEq, Repr

/-- A fault planned for the `nth` call of a kind, counted from one. -/
structure Fault where
  call : Call
  nth : Nat
  mishap : Mishap
deriving DecidableEq, Repr

/-- How many calls of each kind were made. -/
structure Tally where
  reset : Nat := 0
  run : Nat := 0
  step : Nat := 0
  facts : Nat := 0
  agenda : Nat := 0
deriving DecidableEq, Repr

/-- The number for one kind. -/
def Tally.of (t : Tally) : Call → Nat
  | .reset => t.reset
  | .run => t.run
  | .step => t.step
  | .facts => t.facts
  | .agenda => t.agenda

/-- One more call of a kind. -/
def Tally.count (t : Tally) : Call → Tally
  | .reset => { t with reset := t.reset + 1 }
  | .run => { t with run := t.run + 1 }
  | .step => { t with step := t.step + 1 }
  | .facts => { t with facts := t.facts + 1 }
  | .agenda => { t with agenda := t.agenda + 1 }

theorem Tally.of_count (t : Tally) (c k : Call) :
    (t.count c).of k = if k = c then t.of k + 1 else t.of k := by
  cases c <;> cases k <;> rfl

/-- An engine with planned faults and texts. -/
structure Faulty (σ : Type) where
  inside : σ
  faults : List Fault
  /-- The planned texts, by call and number. -/
  planned : Call → List (Option String)
  made : Tally := {}

namespace Faulty

variable {σ : Type}

/-- The first fault planned for the `n`-th call of a kind. -/
def mishap? (f : Faulty σ) (c : Call) (n : Nat) : Option Mishap :=
  (f.faults.find? fun x => x.call = c ∧ x.nth = n).map (·.mishap)

/-- The text planned for the `n`-th call of a kind. -/
def plannedText? (f : Faulty σ) (c : Call) (n : Nat) : Option String :=
  ((f.planned c)[n - 1]?).join

/-- What a call returns once a planned text has taken its place. -/
def overlay (text : Option String) : (c : Call) → Reply c → Reply c
  | .facts, .ok value => .ok (text.getD value)
  | .agenda, .ok value => .ok (text.getD value)
  | _, reply => reply

instance [Engine σ] : Engine (Faulty σ) where
  call c f :=
    let f := { f with made := f.made.count c }
    let n := f.made.of c
    match f.mishap? c n with
    | some (.failure e) => (.error e, f)
    | some (.panic p) => (.panicked p, f)
    | none =>
      let (reply, inside) := Engine.call c f.inside
      (overlay (f.plannedText? c n) c reply, { f with inside })

end Faulty

end Cadence.Engine
