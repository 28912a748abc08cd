import Cadence.Text.Blank

/-!
# Cadence.Text.Line — lines

A line ends at a line feed, and one carriage return before the line feed belongs to the line end.
Text after the last line feed is a line of its own, unless it is empty.
-/

namespace Cadence.Text

/-- One line without the carriage return of its line end. -/
def dropReturn (line : List Char) : List Char :=
  match line.reverse with
  | '\r' :: r => r.reverse
  | _ => line

/-- Drops the line ends of the pieces between line feeds; only the last piece has no line end. -/
def endLines : List (List Char) → List (List Char)
  | [] => []
  | [last] => if last.isEmpty then [] else [last]
  | piece :: pieces => dropReturn piece :: endLines pieces

/-- The lines of a text. -/
def lines (s : List Char) : List (List Char) := endLines (cut (· == '\n') s)

/-- The last line that is not blank, trimmed. -/
def lastLine? (s : List Char) : Option (List Char) :=
  ((lines s).map trim).reverse.find? (!·.isEmpty)

/-- The texts in order with `separator` between neighbours. -/
def joined (separator : String) : List String → String
  | [] => ""
  | [s] => s
  | s :: rest => s ++ separator ++ joined separator rest

@[simp] theorem lines_nil : lines [] = [] := rfl

end Cadence.Text
