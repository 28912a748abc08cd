import Cadence.Engine.StandIn
import Cadence.Json.Reader

/-!
# Cadence.Engine.StandIn.Transcript — prepared replies as JSON

A transcript is an object with a list of replies for each slot that has any.  A reply is its text,
or an object with `text` or, for any bytes, `hex`, and what is special about it: `no_prompt`, `eol`,
`chunk` and `eof`.
-/

namespace Cadence.Engine.StandIn

open Text.Utf8 (Bytes)

/-- The name of a slot. -/
def Slot.name : Slot → String
  | banner => "banner"
  | load => "load"
  | watch => "watch"
  | reset => "reset"
  | run => "run"
  | run1 => "run1"
  | facts => "facts"
  | agenda => "agenda"

def Slot.all : List Slot := [banner, load, watch, reset, run, run1, facts, agenda]

/-- The bytes that hexadecimal digits denote, two for each; others are passed over. -/
def bytesOfHex : List Char → Bytes
  | a :: b :: r =>
    match Json.hexDigit? a, Json.hexDigit? b with
    | some x, some y => UInt8.ofNat (16 * x + y) :: bytesOfHex r
    | _, _ => bytesOfHex r
  | _ => []

/-- The text of a member. -/
def textIn (members : List (String × Json)) (name : String) : Option String :=
  match members.lookup name with
  | some (.string s) => some s
  | _ => none

/-- Whether a member is there and true. -/
def flagIn (members : List (String × Json)) (name : String) : Bool :=
  match members.lookup name with
  | some (.bool b) => b
  | _ => false

/-- The count of a member. -/
def countIn (members : List (String × Json)) (name : String) : Option Nat :=
  match members.lookup name with
  | some (.number numeral) => Text.count? numeral
  | _ => none

/-- Reads a reply. -/
def Answer.ofJson? : Json → Option Answer
  | .string s => some { bytes := Text.Utf8.ofString s }
  | .object members =>
    let bytes := match textIn members "text" with
      | some s => Text.Utf8.ofString s
      | none => bytesOfHex ((textIn members "hex").getD "").toList
    some {
      bytes := bytes
      hasPrompt := !flagIn members "no_prompt"
      lineEnd := Text.Utf8.ofString ((textIn members "eol").getD "\n")
      pieceLength := countIn members "chunk"
      closes := flagIn members "eof" }
  | _ => none

/-- The replies of one slot. -/
def repliesOf (members : List (String × Json)) (slot : Slot) : Option (List (Slot × Answer)) :=
  match members.lookup slot.name with
  | none => some []
  | some (.array items) => items.mapM fun v => (Answer.ofJson? v).map (slot, ·)
  | some _ => none

/-- Reads a transcript. -/
def ofJson? : Json → Option StandIn
  | .object members =>
    (Slot.all.mapM (repliesOf members)).map fun replies => { replies := replies.flatten }
  | _ => none

end Cadence.Engine.StandIn
