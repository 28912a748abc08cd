import Cadence.Engine.Piped

/-!
# Cadence.Engine.StandIn — a child process that plays prepared replies

The stand-in reads lines.  The lines up to one that prints a mark are a command; each command has a
slot, and the next reply of that slot is played, or nothing but the frame if none is left.
-/

namespace Cadence.Engine

open Text.Utf8 (Bytes)

namespace StandIn

/-- The kinds of commands that replies are prepared for. -/
inductive Slot where
  | banner
  | load
  | watch
  | reset
  | run
  | run1
  | facts
  | agenda
deriving DecidableEq, Repr

/-- The slot of a command. -/
def Slot.of (command : String) : Option Slot :=
  if command = "" then some banner
  else if "(load ".toList.isPrefixOf command.toList then some load
  else if command = "(watch statistics)" then some watch
  else if command = "(reset)" then some reset
  else if command = "(run)" then some run
  else if command = "(run 1)" then some run1
  else if command = "(facts)" then some facts
  else if command = "(agenda)" then some agenda
  else none

/-- A prepared reply. -/
structure Answer where
  bytes : Bytes := []
  /-- Whether the prompt comes before the mark. -/
  hasPrompt : Bool := true
  /-- What ends the line of the mark. -/
  lineEnd : Bytes := [0x0A]
  /-- The length of the pieces; all at once if there is none. -/
  pieceLength : Option Nat := none
  /-- Whether input and output are closed in place of the frame. -/
  closes : Bool := false
deriving DecidableEq, Repr

/-- Cuts into pieces of `k` bytes; the first argument bounds their number. -/
def cutEvery (k : Nat) : Nat → Bytes → List Bytes
  | 0, bs => [bs]
  | bound + 1, bs =>
    if bs.length ≤ k then [bs] else bs.take k :: cutEvery k bound (bs.drop k)

/-- The pieces in which bytes are printed. -/
def pieces (length : Option Nat) (bs : Bytes) : List Bytes :=
  if bs.isEmpty then []
  else
    match length with
    | some (k + 1) => cutEvery (k + 1) bs.length bs
    | _ => [bs]

/-- What a reply prints with its mark. -/
def Answer.output (a : Answer) (mark : Bytes) : List Bytes :=
  if a.closes then pieces a.pieceLength a.bytes
  else
    pieces a.pieceLength
      (a.bytes ++ (if a.hasPrompt then prompt else []) ++ mark ++ a.lineEnd ++ prompt)

/-- The mark that a line prints, if it prints one. -/
def markOf? (line : List Char) : Option (List Char) :=
  match dropPrefix? "(printout t \"".toList line with
  | none => none
  | some r =>
    match dropPrefix? "\" crlf)".toList.reverse r.reverse with
    | none => none
    | some m => if "<<end ".toList.isPrefixOf m.reverse then some m.reverse else none

end StandIn

open StandIn

/-- The prepared replies and what was read. -/
structure StandIn where
  replies : List (Slot × Answer)
  /-- The lines of the command being read. -/
  heard : List String := []
  /-- The line being read. -/
  line : List Char := []
  /-- The commands read, oldest first. -/
  sent : List String := []
  isClosed : Bool := false
deriving DecidableEq, Repr

namespace StandIn

/-- Takes the next reply of a slot. -/
def next (s : StandIn) (slot : Slot) : Answer × StandIn :=
  match s.replies.find? (·.1 = slot) with
  | none => ({}, s)
  | some (_, a) => (a, { s with replies := s.replies.eraseP (·.1 = slot) })

/-- Answers the command that was heard. -/
def answer (s : StandIn) (mark : List Char) : List Bytes × StandIn :=
  let command := Text.joined "\n" s.heard
  let s := { s with heard := [], sent := s.sent ++ [command] }
  let (a, s) := match Slot.of command with
    | some slot => s.next slot
    | none => ({}, s)
  (a.output (Text.Utf8.encode mark), { s with isClosed := a.closes })

/-- Reads a line. -/
def readLine (s : StandIn) (line : List Char) : List Bytes × StandIn :=
  match markOf? line with
  | some mark => s.answer mark
  | none => ([], { s with heard := s.heard ++ [String.ofList line] })

/-- Reads what was written, line by line. -/
def readAll : List Char → StandIn → List Bytes × StandIn
  | [], s => ([], s)
  | '\n' :: r, s =>
    let (out, s) := ({ s with line := [] } : StandIn).readLine s.line.reverse
    let (later, s) := readAll r s
    (out ++ later, s)
  | c :: r, s => readAll r { s with line := c :: s.line }

instance : Child StandIn where
  isDeaf := StandIn.isClosed
  write text s := readAll text.toList s

end StandIn

end Cadence.Engine
