import Cadence.Engine.Piped
import Cadence.Text.Blank

/-!
# Cadence.Engine.Workspace — finding scripts and programs

A workspace is a directory with what lies in it, and the directories in which programs are looked
for.  Scripts must be files.  A program's path is taken as it is if it has a slash, and looked for
otherwise.  `Launcher` is where engines in child processes come from.
-/

namespace Cadence.Engine

/-- What a path can lead to. -/
inductive Node where
  | file
  | directory
  | program
deriving DecidableEq, Repr

/-- Why a path leads nowhere. -/
inductive PathError where
  | notFound
  | notADirectory
  | notExecutable
  | hasNul
deriving DecidableEq, Repr

def PathError.message : PathError → String
  | notFound => "No such file or directory (os error 2)"
  | notADirectory => "Not a directory (os error 20)"
  | notExecutable => "Permission denied (os error 13)"
  | hasNul => "nul byte found in provided data"

/-- A directory and the directories of programs. -/
structure Workspace where
  /-- What lies in the directory or elsewhere, by the place its path names. -/
  entries : List (List String × Node)
  /-- Where programs are looked for, inside the directory. -/
  searched : List String := []
deriving DecidableEq, Repr

namespace Workspace

/-- The parts of a path between slashes; the root directory is a part of its own. -/
def parts (path : String) : List String :=
  match (Text.cut (· == '/') path.toList).map String.ofList with
  | "" :: part :: rest => "/" :: part :: rest
  | ps => ps

/-- The parts of a path that name something. -/
def place (path : String) : List String := (parts path).filter fun p => p ≠ "" ∧ p ≠ "."

/-- What lies at a place.  A place above an entry is a directory. -/
def node? (w : Workspace) (place : List String) : Option Node :=
  match w.entries.find? (·.1 = place) with
  | some (_, n) => some n
  | none =>
    if place.isEmpty || w.entries.any (fun e => place.isPrefixOf e.1) then some .directory else none

/-- Walks along the parts of a path from a place; each part but the last needs a directory. -/
def walk (w : Workspace) (place : List String) : List String → Except PathError Node
  | [] =>
    match w.node? place with
    | some n => .ok n
    | none => .error .notFound
  | part :: rest =>
    match w.node? place with
    | none => .error .notFound
    | some .directory =>
      if part = "" ∨ part = "." then walk w place rest
      else if part = ".." then
        if place.isEmpty then .error .notFound else walk w place.dropLast rest
      else walk w (place ++ [part]) rest
    | some _ => .error .notADirectory

/-- What a path leads to. -/
def find (w : Workspace) (path : String) : Except PathError Node :=
  if path.toList.any (· = '\x00') then .error .hasNul
  else if path = "" then .error .notFound
  else w.walk [] (parts path)

/-- Whether a path leads to a file. -/
def isFile (w : Workspace) (path : String) : Bool :=
  match w.find path with
  | .ok .file => true
  | .ok .program => true
  | _ => false

/-- Whether a path can be started as a program. -/
def program? (w : Workspace) (path : String) : Except PathError Unit :=
  match w.find path with
  | .ok .program => .ok ()
  | .ok _ => .error .notExecutable
  | .error e => .error e

/-- The path of a program in the searched directories. -/
def which (w : Workspace) (name : String) : Option String :=
  (w.searched.map fun dir => dir ++ "/" ++ name).find? fun path => w.program? path matches .ok ()

/-- Whether a program can be started, by a path or by a name without slash. -/
def start? (w : Workspace) (binary : String) : Except PathError Unit :=
  if binary.toList.any (· = '/') then w.program? binary
  else if binary.toList.any (· = '\x00') then .error .hasNul
  else if binary = "" ∨ (w.which binary).isNone then .error .notFound
  else .ok ()

end Workspace

/-- Where engines in child processes come from. -/
structure Launcher (κ : Type) where
  workspace : Workspace
  binary : String
  /-- The child that starting the program gives. -/
  child : κ
  /-- The marks each engine uses. -/
  marks : Nat → Mark
  /-- The last engine that could not load its script. -/
  discarded : Option (Piped κ) := none

namespace Launcher

/-- The program that is looked for where none is named. -/
def binaryName : String := "clips"

/-- The binary to start: the one that is named, or the one found in the searched directories. -/
def locate (named : Option String) (w : Workspace) : Except Error String :=
  match named with
  | some path => .ok path
  | none =>
    match w.which binaryName with
    | some path => .ok path
    | none =>
      .error ⟨.load, "cannot find `" ++ binaryName ++ "` on PATH: cannot find binary path"⟩

variable {κ : Type} [Child κ]

/-- Starts a child and loads a script. -/
def load (script : Script) (l : Launcher κ) : Outcome Error (Piped κ) × Launcher κ :=
  if l.workspace.isFile script.path then
    match l.workspace.start? l.binary with
    | .error e =>
      (.error ⟨.load, "failed to start " ++ l.binary ++ ": " ++ e.message⟩, l)
    | .ok () =>
      match Piped.load script { child := l.child, marks := l.marks } with
      | (.ok (), p) => (.ok p, l)
      | (.error e, p) => (.error e, { l with discarded := some p.close })
  else (.error ⟨.load, "rule script not found: " ++ script.path⟩, l)

end Launcher

end Cadence.Engine
