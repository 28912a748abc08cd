import Cadence.Json.Reader
import Cadence.Lifecycle
import Cadence.Mode

/-!
# Cadence.Wire — modes, states and notifications as JSON

A mode is written as its tag.  A state or notification is an object whose member `type` names it;
a failure and an error carry a `message` after it.  Reading is a little wider than writing: a mode
may be an object with its tag as only member and `null` as value, a state or notification may have
its members in any order among others, or be an array of its tag and, where there is one, its
message.
-/

namespace Cadence

namespace Wire

/-- What is left of a tagged value when its tag is taken out. -/
inductive Body where
  | named (members : List (String × Json))
  | listed (items : List Json)

/-- Takes a tagged value apart; the tag must be there exactly once, as a string. -/
def untag : Json → Option (String × Body)
  | .object members =>
    match members.filter fun m => m.1 == "type" with
    | [(_, .string tag)] => some (tag, .named (members.filter fun m => m.1 != "type"))
    | _ => none
  | .array (.string tag :: items) => some (tag, .listed items)
  | _ => none

/-- A body that has to hold nothing; other members are of no account, other items are. -/
def Body.isEmpty : Body → Bool
  | .named _ => true
  | .listed items => items.isEmpty

/-- The message of a body that has to hold one, exactly once and as a string. -/
def Body.message? : Body → Option String
  | .named members =>
    match members.filter fun m => m.1 == "message" with
    | [(_, .string m)] => some m
    | _ => none
  | .listed [.string m] => some m
  | .listed _ => none

/-- A tagged value without a message. -/
def plain (tag : String) : Json := .object [("type", .string tag)]

/-- A tagged value with a message. -/
def withMessage (tag message : String) : Json :=
  .object [("type", .string tag), ("message", .string message)]

end Wire

open Wire

/-! ### Modes -/

namespace Mode

def toJson (m : Mode) : Json := .string m.tag

/-- The mode written exactly so. -/
def ofExactTag? (tag : String) : Option Mode :=
  if tag = "RUN" then some run
  else if tag = "RUN_ONE" then some runOne
  else if tag = "STEP" then some step
  else none

def ofJson? : Json → Option Mode
  | .string tag => ofExactTag? tag
  | .object [(tag, .null)] => ofExactTag? tag
  | _ => none

end Mode

/-! ### States -/

namespace State

def toJson : State → Json
  | failed message => withMessage "failed" message
  | s => plain s.name

/-- The state that a tag names, if it is one without a message. -/
def ofPlainTag? (tag : String) : Option State :=
  [new, started, setupDone, suspended, runningTurn, disposed].find? fun s => s.name == tag

def ofJson? (v : Json) : Option State :=
  match untag v with
  | none => none
  | some (tag, body) =>
    if tag = "failed" then body.message?.map failed
    else if body.isEmpty then ofPlainTag? tag
    else none

end State

/-! ### Notifications -/

namespace Notification

/-- The tag of a notification. -/
def tag : Notification → String
  | setupDone => "SETUP_DONE"
  | actionDone => "ACTION_DONE"
  | disposeDone => "DISPOSE_DONE"
  | error _ => "ERROR"

def toJson : Notification → Json
  | error message => withMessage "ERROR" message
  | n => plain n.tag

/-- The notification that a tag names, if it is one without a message. -/
def ofPlainTag? (tag : String) : Option Notification :=
  [setupDone, actionDone, disposeDone].find? fun n => n.tag == tag

def ofJson? (v : Json) : Option Notification :=
  match untag v with
  | none => none
  | some (tag, body) =>
    if tag = "ERROR" then body.message?.map error
    else if body.isEmpty then ofPlainTag? tag
    else none

end Notification

end Cadence
