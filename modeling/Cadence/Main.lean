import Cadence.Console.Program
import Cadence.Engine.StandIn.Transcript

/-!
# Cadence.Main — the command line

`clips-driver SCRIPT` opens a console on a run of the script.  The executable that the settings name
is taken to be a transcript, which the stand-in plays.
-/

namespace Cadence

open Engine Console

/-- How many steps may be made between two lines of input. -/
def stepLimit : Nat := 1000000000000

/-- The text of a file, if it can be read. -/
def readText? (path : String) : IO (Option String) := do
  try return some (← IO.FS.readFile path) catch _ => return none

/-- Prints what is new on both streams. -/
def flushNew (old new : OfLauncher StandIn) : IO Unit := do
  for p in new.stdout.drop old.stdout.length do IO.println p.render
  for s in new.stderr.drop old.stderr.length do IO.eprintln s
  (← IO.getStdout).flush

/-- Reads a line, or why there is none; it is empty at the end of the input. -/
def readLine (input : IO.FS.Stream) : IO (Except String String) := do
  try return .ok (← input.getLine) catch e => return .error (toString e)

/-- Reads lines until the console does not wait any more or the input ends. -/
partial def converse (input : IO.FS.Stream) (k : OfLauncher StandIn) : IO (OfLauncher StandIn) := do
  let rested := rest stepLimit k
  flushNew k rested
  if !rested.isWaiting then return rested
  match ← readLine input with
  | .error reason => return rested.misread reason
  | .ok line =>
    let next := if line.isEmpty then rest stepLimit rested.endInput else rested.line line
    flushNew rested next
    if line.isEmpty then return next else converse input next

/-- The settings that the program reads. -/
def settingNames : List String :=
  ["CLIPS_DRIVER_MODE", "CLIPS_BINARY", "CLIPS_DRIVER_EVENT_CAPACITY", "CLIPS_DRIVER_WORKER_NAME"]

end Cadence

open Cadence Engine Console

def main (arguments : List String) : IO UInt32 := do
  let env ← settingNames.mapM fun name => return (name, (← IO.getEnv name).getD "")
  let lookup (name : String) : Option String := (env.lookup name).bind Config.nonempty
  let binary := (lookup "CLIPS_BINARY").getD Launcher.binaryName
  let transcript := ((← readText? binary).bind Json.read).bind StandIn.ofJson?
  let script := arguments.headD ""
  let scriptEntry := if (← readText? script).isSome then [(Workspace.place script, Node.file)] else []
  let binaryEntry := if transcript.isSome then [(Workspace.place binary, Node.program)] else []
  let workspace : Workspace := { entries := scriptEntry ++ binaryEntry, searched := ["."] }
  let child : StandIn := transcript.getD { replies := [] }
  match prepare arguments lookup workspace child .numbered with
  | .error (ended, _) =>
    for s in ended.stdout do IO.println s
    for s in ended.stderr do IO.eprintln s
    return ended.code.toUInt32
  | .ok k =>
    let talked ← converse (← IO.getStdin) k
    let closed := talked.close stepLimit
    flushNew talked closed
    for f in closed.fault do IO.eprintln ("Error: " ++ f.message)
    return if closed.fault.isSome then 1 else 0
