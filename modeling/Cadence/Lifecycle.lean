import Cadence.Text.Blank

/-!
# Cadence.Lifecycle — the states of a controller

A controller is created, gets an engine, is set up, goes through turns and ends either disposed or
failed.  `State.next` is the whole rule book: which event is accepted in which state, and which
notification goes out with it.  Setting up is announced once and first, a completed turn only after
that, and the end at most once, after which every event is rejected.
-/

namespace Cadence

/-- Where a controller is in its life. -/
inductive State where
  /-- No engine yet. -/
  | new
  /-- An engine is loaded; the domain is not set up. -/
  | started
  /-- The domain is set up; no turn has begun. -/
  | setupDone
  /-- The worker waits at the gate. -/
  | suspended
  /-- Inside a turn, or between turns that need no release. -/
  | runningTurn
  /-- The run ended well. -/
  | disposed
  /-- The run ended by a failure. -/
  | failed (message : String)
deriving DecidableEq, Repr, Inhabited

/-- What the worker reports. -/
inductive Event where
  | engineLoaded
  | setupCompleted
  | gateParked
  | turnStarted
  | turnCompleted
  | disposed
  | faulted (message : String)
deriving DecidableEq, Repr

/-- What subscribers are told. -/
inductive Notification where
  | setupDone
  | actionDone
  | disposeDone
  | error (message : String)
deriving DecidableEq, Repr

namespace State

/-- No event leaves a terminal state. -/
def isTerminal : State → Bool
  | disposed => true
  | failed _ => true
  | _ => false

/-- The name of a state, without the message of a failure. -/
def name : State → String
  | new => "new"
  | started => "started"
  | setupDone => "setup_done"
  | suspended => "suspended"
  | runningTurn => "running_turn"
  | disposed => "disposed"
  | failed _ => "failed"

/-- The state in words. -/
def describe : State → String
  | failed message => "failed: " ++ message
  | s => s.name

end State

/-- The name of an event. -/
def Event.name : Event → String
  | .engineLoaded => "EngineLoaded"
  | .setupCompleted => "SetupCompleted"
  | .gateParked => "GateParked"
  | .turnStarted => "TurnStarted"
  | .turnCompleted => "TurnCompleted"
  | .disposed => "Disposed"
  | .faulted _ => "Faulted"

/-- Nothing follows a terminal notification. -/
def Notification.isTerminal : Notification → Bool
  | .disposeDone => true
  | .error _ => true
  | _ => false

/-- The text of a failure that has no text of its own. -/
def unknownFailure : String := "unknown failure"

/-- The text a failure is reported with: its own, unless that is blank. -/
def failureText (message : String) : String :=
  if Text.isBlankText message then unknownFailure else message

/-- Why an event was not accepted. -/
inductive Rejection where
  | runIsOver (state : State)
  | outOfPlace (event : Event) (state : State)
deriving DecidableEq, Repr

def Rejection.message : Rejection → String
  | .runIsOver s => "Controller is " ++ s.name ++ "; the run is over"
  | .outOfPlace e s => "Invalid transition: " ++ e.name ++ " while " ++ s.name

/-- An accepted event: the state after it and what subscribers are told. -/
structure Transition where
  state : State
  notice : Option Notification
deriving DecidableEq, Repr

namespace State

/-- The transition on an event. -/
def next (s : State) (e : Event) : Except Rejection Transition :=
  if s.isTerminal then .error (.runIsOver s)
  else
    match s, e with
    | _, .faulted m =>
      .ok ⟨failed (failureText m), some (.error (failureText m))⟩
    | new, .engineLoaded => .ok ⟨started, none⟩
    | started, .engineLoaded => .ok ⟨started, none⟩
    | started, .setupCompleted => .ok ⟨setupDone, some .setupDone⟩
    | setupDone, .gateParked => .ok ⟨suspended, none⟩
    | runningTurn, .gateParked => .ok ⟨suspended, none⟩
    | setupDone, .turnStarted => .ok ⟨runningTurn, none⟩
    | suspended, .turnStarted => .ok ⟨runningTurn, none⟩
    | runningTurn, .turnStarted => .ok ⟨runningTurn, none⟩
    | runningTurn, .turnCompleted => .ok ⟨runningTurn, some .actionDone⟩
    | setupDone, .disposed => .ok ⟨disposed, some .disposeDone⟩
    | runningTurn, .disposed => .ok ⟨disposed, some .disposeDone⟩
    | s, e => .error (.outOfPlace e s)

/-- The state after an event; a rejected event leaves it. -/
def after (s : State) (e : Event) : State :=
  match s.next e with
  | .ok t => t.state
  | .error _ => s

/-- The notification an event brings about; a rejected event brings about none. -/
def noticeOf (s : State) (e : Event) : Option Notification :=
  match s.next e with
  | .ok t => t.notice
  | .error _ => none

/-- Feeds events in order, skipping the rejected ones: the last state and the notifications. -/
def feed (s : State) : List Event → State × List Notification
  | [] => (s, [])
  | e :: rest =>
    let (final, later) := (s.after e).feed rest
    (final, (s.noticeOf e).toList ++ later)

theorem next_of_isTerminal {s : State} (h : s.isTerminal = true) (e : Event) :
    s.next e = .error (.runIsOver s) := by
  simp [next, h]

@[simp] theorem feed_nil (s : State) : s.feed [] = (s, []) := rfl

theorem feed_cons (s : State) (e : Event) (rest : List Event) :
    s.feed (e :: rest) =
      (((s.after e).feed rest).1, (s.noticeOf e).toList ++ ((s.after e).feed rest).2) := rfl

theorem feed_append (s : State) (first second : List Event) :
    s.feed (first ++ second) =
      (((s.feed first).1.feed second).1, (s.feed first).2 ++ ((s.feed first).1.feed second).2) := by
  induction first generalizing s with
  | nil => simp
  | cons e rest ih => simp [feed_cons, ih, List.append_assoc]

end State

end Cadence
