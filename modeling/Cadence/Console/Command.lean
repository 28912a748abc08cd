import Cadence.Text.Blank

/-!
# Cadence.Console.Command — what a console line asks for

A line is a verb and, after the first white space, an argument; white space around either is of no
account.
-/

namespace Cadence.Console

/-- What can be asked for. -/
inductive Command where
  | resume
  /-- Change the cadence to the mode a tag names. -/
  | mode (tag : String)
  | facts
  | agenda
  | state
  | stop
  | quit
  | help
  | unknown (verb : String)
deriving DecidableEq, Repr

/-- The verb and the argument of a line. -/
def splitLine (line : List Char) : List Char × List Char :=
  let line := Text.trim line
  (line.takeWhile (!Text.isBlank ·), Text.trim (line.dropWhile (!Text.isBlank ·)))

/-- Reads a line. -/
def Command.ofLine (line : String) : Command :=
  let (verb, argument) := splitLine line.toList
  let verb := String.ofList verb
  if verb = "" ∨ verb = "r" ∨ verb = "resume" then .resume
  else if verb = "mode" then .mode (String.ofList argument)
  else if verb = "facts" then .facts
  else if verb = "agenda" then .agenda
  else if verb = "state" then .state
  else if verb = "stop" then .stop
  else if verb = "quit" ∨ verb = "q" ∨ verb = "exit" then .quit
  else if verb = "help" ∨ verb = "?" then .help
  else .unknown verb

/-- Whether nothing is to be sent after a command. -/
def Command.isLast : Command → Bool
  | stop => true
  | quit => true
  | _ => false

/-- The help text. -/
def help : String :=
  "commands:\n" ++
  "  resume | r | <enter>   release the worker for one turn\n" ++
  "  mode RUN|RUN_ONE|STEP  change the cadence\n" ++
  "  facts                  print the fact list\n" ++
  "  agenda                 print the agenda\n" ++
  "  state                  print the controller state\n" ++
  "  stop                   cancel at the next turn boundary\n" ++
  "  quit                   stop and exit\n" ++
  "  help                   this text"

end Cadence.Console
