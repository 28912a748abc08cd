/-!
# Cadence.Engine.Literal — string literals in commands

In a command a text stands between double quotes, and a backslash makes the next character literal.
`quote` writes a text so, `read?` reads one back and leaves what follows its closing quote.
-/

namespace Cadence.Engine.Literal

/-- The inside of a literal: a double quote and a backslash are preceded by a backslash. -/
def escape : List Char → List Char
  | [] => []
  | c :: r => if c = '"' ∨ c = '\\' then '\\' :: c :: escape r else c :: escape r

/-- The literal for a text. -/
def quote (s : List Char) : List Char := '"' :: escape s ++ ['"']

/-- Reads up to the first double quote that no backslash makes literal. -/
def readInside? : List Char → Option (List Char × List Char)
  | [] => none
  | '"' :: r => some ([], r)
  | '\\' :: c :: r => (readInside? r).map fun p => (c :: p.1, p.2)
  | '\\' :: [] => none
  | c :: r => (readInside? r).map fun p => (c :: p.1, p.2)

/-- Reads a literal at the start of a text. -/
def read? : List Char → Option (List Char × List Char)
  | '"' :: r => readInside? r
  | _ => none

/-- `quote` on strings. -/
def quoted (s : String) : String := String.ofList (quote s.toList)

end Cadence.Engine.Literal
