import Cadence.Engine

/-!
# Cadence.Engine.Catalogue — engines by the path of their script

A catalogue says for each path what loading gives: a fresh engine, always the same, or an error.  A
path that is not listed is a script that is not there.
-/

namespace Cadence.Engine

/-- What loading gives, by path. -/
abbrev Catalogue (σ : Type) : Type := List (String × Except Error σ)

/-- Loads an engine. -/
def Catalogue.load {σ : Type} (script : Script) (c : Catalogue σ) :
    Outcome Error σ × Catalogue σ :=
  match c.lookup script.path with
  | some (.ok g) => (.ok g, c)
  | some (.error e) => (.error e, c)
  | none => (.error ⟨.load, "rule script not found: " ++ script.path⟩, c)

end Cadence.Engine
