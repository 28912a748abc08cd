import Cadence.Controller.Call
import Cadence.Wire

/-!
# Cadence.Controller.Observer — subscribers that watch and act by rules

An observer writes down every notification.  A rule says on which notifications, or on which one of
them, it does what: call the controller and write down the answer, or panic.  A panicker does
nothing but panic.
-/

namespace Cadence.Controller

/-- One thing an observer does. -/
inductive Deed (ι : Type) where
  | call (c : Call ι)
  | panic

/-- What an observer does on notifications with a tag; with a number, on that one of them only. -/
structure Rule (ι : Type) where
  tag : String
  nth : Option Nat
  deeds : List (Deed ι)

/-- A subscriber's character. -/
inductive Observer (ι : Type) where
  | watcher (rules : List (Rule ι))
  | panicker

/-- What an observer writes down. -/
inductive Sighting (ι δ : Type) where
  | told (n : Notification)
  | called (c : Call ι) (answer : c.Answer δ)
  | panicking

/-- The notebook of all observers: what each wrote, oldest first, and the tags each has seen. -/
structure Notebook (ι δ : Type) where
  pages : List (ι × Sighting ι δ) := []
  seen : List (ι × String) := []

namespace Notebook

variable {ι δ : Type} [DecidableEq ι]

/-- Writes down. -/
def write (b : Notebook ι δ) (i : ι) (x : Sighting ι δ) : Notebook ι δ :=
  { b with pages := b.pages ++ [(i, x)] }

/-- Writes down a notification and counts it. -/
def meet (b : Notebook ι δ) (i : ι) (n : Notification) : Notebook ι δ :=
  { b.write i (.told n) with seen := (i, n.tag) :: b.seen }

/-- How many notifications with a tag an observer has seen. -/
def times (b : Notebook ι δ) (i : ι) (tag : String) : Nat := b.seen.count (i, tag)

/-- What one observer wrote. -/
def pagesOf (b : Notebook ι δ) (i : ι) : List (Sighting ι δ) :=
  b.pages.filterMap fun p => if p.1 = i then some p.2 else none

/-- The notebook with empty pages. -/
def turnPage (b : Notebook ι δ) : Notebook ι δ := { b with pages := [] }

end Notebook

variable {ι δ : Type} [DecidableEq ι]

/-- Whether a rule applies to the `count`-th notification with a tag. -/
def Rule.applies (r : Rule ι) (tag : String) (count : Nat) : Bool :=
  r.tag = tag && (r.nth.isNone || r.nth = some count)

/-- Does things one after another; a panic is the end. -/
def carryOut (i : ι) : List (Deed ι) → Notebook ι δ → Reaction ι δ (Notebook ι δ)
  | [], b => .done (none, b)
  | .panic :: _, b => .done (some (.text "observer panics as told"), b.write i .panicking)
  | .call c :: rest, b => .ask (.call c) fun answer => carryOut i rest (b.write i (.called c answer))

/-- What an observer does with a notification. -/
def Observer.react (o : Observer ι) (i : ι) (n : Notification) (b : Notebook ι δ) :
    Reaction ι δ (Notebook ι δ) :=
  match o with
  | panicker => .done (some (.text "subscriber refuses the notification"), b)
  | watcher rules =>
    let b := b.meet i n
    let due := rules.filter fun r => r.applies n.tag (b.times i n.tag)
    carryOut i (due.flatMap (·.deeds)) b

end Cadence.Controller
