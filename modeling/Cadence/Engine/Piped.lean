import Cadence.Engine.Literal
import Cadence.Engine.Reply

/-!
# Cadence.Engine.Piped — an engine in a child process

The child reads commands and prints replies.  What it prints arrives in pieces that may be cut
anywhere.  Every command is sent together with the printing of a fresh mark, and the pieces are
gathered until the reply is complete; output that ends before that is a broken connection.
-/

namespace Cadence.Engine

open Text.Utf8 (Bytes)

/-- Child processes whose state is `κ`. -/
class Child (κ : Type) where
  /-- Whether the child has closed its input. -/
  isDeaf : κ → Bool
  /-- Writes to the child: the pieces it prints in answer. -/
  write : String → κ → List Bytes × κ

/-- An engine in a child process. -/
structure Piped (κ : Type) where
  child : κ
  /-- What has arrived and was not read. -/
  pending : List Bytes := []
  /-- The marks to come. -/
  marks : Nat → Mark
  /-- How many marks were used. -/
  used : Nat := 0

namespace Piped

variable {κ : Type}

def outputClosed : Error := ⟨.io, "clips process closed its output"⟩

def inputClosed : Error := ⟨.io, "Broken pipe (os error 32)"⟩

/-- Gathers pieces until the reply is complete; the pieces after it are left. -/
def gather (mark : Bytes) : Bytes → List Bytes → Except Error String × List Bytes
  | _, [] => (.error outputClosed, [])
  | arrived, piece :: rest =>
    match split? (arrived ++ piece) mark with
    | some reply => (.ok reply, rest)
    | none => gather mark (arrived ++ piece) rest

variable [Child κ]

/-- Sends a command and reads its reply. -/
def command (text : String) (p : Piped κ) : Except Error String × Piped κ :=
  if Child.isDeaf p.child then (.error inputClosed, p)
  else
    let mark := p.marks p.used
    let (output, child) := Child.write (text ++ "\n" ++ mark.command ++ "\n") p.child
    let (reply, pending) := gather mark.bytes [] (p.pending ++ output)
    (reply, { p with child, pending, used := p.used + 1 })

/-- A reply with a diagnostic is a failure. -/
def check (reply : String) : Except Error String :=
  match diagnostic? reply with
  | some message => .error ⟨.command, message⟩
  | none => .ok reply

/-- Sends a command whose reply must have no diagnostic. -/
def checked (text : String) (p : Piped κ) : Except Error String × Piped κ :=
  let (reply, p) := p.command text
  (reply.bind check, p)

/-- Says goodbye to the child. -/
def close (p : Piped κ) : Piped κ :=
  if Child.isDeaf p.child then p else { p with child := (Child.write "(exit)\n" p.child).2 }

/-! ### Loading -/

/-- The command that loads a script. -/
def loadCommand (script : Script) : String := "(load " ++ Literal.quoted script.path ++ ")"

/-- Whether a load succeeded, by its reply. -/
def checkLoad (script : Script) (reply : String) : Except Error Unit :=
  match diagnostic? reply with
  | some message => .error ⟨.load, message⟩
  | none =>
    if Text.lastLine? reply.toList = some "FALSE".toList then
      .error ⟨.load, "clips could not load " ++ script.path⟩
    else .ok ()

/-- Waits for the banner, loads a script and turns the statistics on.  The first obstacle ends it. -/
def load (script : Script) (p : Piped κ) : Except Error Unit × Piped κ :=
  match p.command "" with
  | (.error e, p) => (.error e, p)
  | (.ok _, p) =>
    match p.command (loadCommand script) with
    | (.error e, p) => (.error e, p)
    | (.ok reply, p) =>
      match checkLoad script reply with
      | .error e => (.error e, p)
      | .ok () =>
        let (reply, p) := p.checked "(watch statistics)"
        (reply.map fun _ => (), p)

/-! ### The engine -/

/-- The command for a call. -/
def commandOf : Call → String
  | .reset => "(reset)"
  | .run => "(run)"
  | .step => "(run 1)"
  | .facts => "(facts)"
  | .agenda => "(agenda)"

/-- What a call makes of its reply. -/
def readValue : (c : Call) → String → c.Value
  | .reset, _ => ()
  | .run, reply => rulesFired reply
  | .step, reply => rulesFired reply
  | .facts, reply => reply
  | .agenda, reply => reply

instance : Engine (Piped κ) where
  call c p :=
    match p.checked (commandOf c) with
    | (.ok reply, p) => (.ok (readValue c reply), p)
    | (.error e, p) => (.error e, p)

end Piped

end Cadence.Engine
