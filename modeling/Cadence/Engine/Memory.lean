import Cadence.Engine
import Cadence.Text.Blank
import Cadence.Text.Count
import Cadence.Text.Line

/-!
# Cadence.Engine.Memory — an engine in memory

Its agenda is a list of lines.  Firing takes the first line away and adds one fact, which names the
fired rule.  A reset restores the agenda the engine was made with and leaves the initial fact
alone.  Any of the five calls can be told to fail; a call that fails is counted but changes nothing
else.
-/

namespace Cadence.Engine

/-- How often each kind of call was made; `overlaps` counts calls begun inside another one. -/
structure Counters where
  resets : Nat := 0
  runs : Nat := 0
  steps : Nat := 0
  queries : Nat := 0
  overlaps : Nat := 0
deriving DecidableEq, Repr

/-- The counters after one more call.  Calls on one engine follow one another, so none overlaps. -/
def Counters.count (k : Counters) : Call → Counters
  | .reset => { k with resets := k.resets + 1 }
  | .run => { k with runs := k.runs + 1 }
  | .step => { k with steps := k.steps + 1 }
  | .facts => { k with queries := k.queries + 1 }
  | .agenda => { k with queries := k.queries + 1 }

/-- An engine in memory. -/
structure Memory where
  /-- The agenda after a reset. -/
  initial : List String
  /-- The message each failing call fails with. -/
  failing : Call → Option String
  agenda : List String := []
  facts : List String := []
  counters : Counters := {}

namespace Memory

/-- The name of the rule of an agenda line: its second word, without the colons it ends in. -/
def ruleOf (activation : String) : String :=
  match Text.words activation.toList with
  | _ :: word :: _ => String.ofList (word.reverse.dropWhile (· == ':')).reverse
  | _ => "rule"

def initialFact : String := "f-0     (initial-fact)"

/-- The fact that firing an agenda line adds as number `n`. -/
def firedFact (n : Nat) (activation : String) : String :=
  "f-" ++ Text.decimal n ++ "     (fired " ++ ruleOf activation ++ ")"

/-- Fires the first rule of the agenda, if there is one. -/
def fire (m : Memory) : Option Memory :=
  match m.agenda with
  | [] => none
  | activation :: rest =>
    some { m with
      agenda := rest
      facts := m.facts ++ [firedFact m.facts.length activation] }

/-- The facts with those of the given agenda lines added, in order. -/
def factsAfter (facts : List String) : List String → List String
  | [] => facts
  | activation :: rest => factsAfter (facts ++ [firedFact facts.length activation]) rest

/-- Fires until the agenda is empty. -/
def fireAll (m : Memory) : Memory :=
  { m with agenda := [], facts := factsAfter m.facts m.agenda }

/-- Answers a call that was not told to fail. -/
def answer (m : Memory) : (c : Call) → c.Value × Memory
  | .reset => ((), { m with agenda := m.initial, facts := [initialFact] })
  | .run => (m.agenda.length, m.fireAll)
  | .step =>
    match m.fire with
    | some m => ((1 : Nat), m)
    | none => ((0 : Nat), m)
  | .facts => (Text.joined "\n" m.facts, m)
  | .agenda => (Text.joined "\n" m.agenda, m)

instance : Engine Memory where
  call c m :=
    let m := { m with counters := m.counters.count c }
    match m.failing c with
    | some message => (.error ⟨.command, message⟩, m)
    | none =>
      let (value, m) := m.answer c
      (.ok value, m)

end Memory

end Cadence.Engine
