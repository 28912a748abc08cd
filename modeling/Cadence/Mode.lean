import Cadence.Text.Blank
import Cadence.Text.Quoted

/-!
# Cadence.Mode — how fast turns follow one another

The cadence decides two things about a turn: whether the worker waits at the gate before it, and
whether it fires one rule or runs the engine to quiescence.
-/

namespace Cadence

/-- The cadence of a run. -/
inductive Mode where
  /-- Never wait; a turn runs to quiescence. -/
  | run
  /-- Wait before a turn; a turn fires one rule. -/
  | runOne
  /-- Wait before a turn; a turn runs to quiescence. -/
  | step
deriving DecidableEq, Repr, Inhabited

/-- A tag that names no mode, without the white space around it. -/
structure UnknownMode where
  tag : String
deriving DecidableEq, Repr

def UnknownMode.message (e : UnknownMode) : String :=
  "unknown cadence mode: " ++ Text.quoted e.tag ++ " (expected RUN, RUN_ONE or STEP)"

namespace Mode

/-- Whether the worker waits at the gate before a turn. -/
def isGated : Mode → Bool
  | run => false
  | runOne => true
  | step => true

/-- Whether a turn fires one rule only. -/
def isSingleStep : Mode → Bool
  | run => false
  | runOne => true
  | step => false

/-- The written name. -/
def tag : Mode → String
  | run => "RUN"
  | runOne => "RUN_ONE"
  | step => "STEP"

/-- The number under which a mode is kept in one byte. -/
def code : Mode → Nat
  | run => 0
  | runOne => 1
  | step => 2

/-- The mode kept as a byte; every byte past the first two reads as `step`. -/
def ofCode (n : UInt8) : Mode :=
  if n = 0 then run else if n = 1 then runOne else step

/-- Reads a tag, white space around it aside.  `RUNONE` is an older spelling of `RUN_ONE`. -/
def ofTag (text : String) : Except UnknownMode Mode :=
  let tag := Text.trimmed text
  if tag = "RUN" then .ok run
  else if tag = "RUN_ONE" ∨ tag = "RUNONE" then .ok runOne
  else if tag = "STEP" then .ok step
  else .error ⟨tag⟩

theorem trimmed_tag (m : Mode) : Text.trimmed m.tag = m.tag := by
  cases m <;> decide +kernel

@[simp] theorem ofTag_tag (m : Mode) : ofTag m.tag = .ok m := by
  rw [ofTag, trimmed_tag]
  cases m <;> simp [tag]

@[simp] theorem ofCode_code (m : Mode) : ofCode (.ofNat m.code) = m := by
  cases m <;> rfl

end Mode

end Cadence
