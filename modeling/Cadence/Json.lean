import Cadence.Text.Quoted

/-!
# Cadence.Json — JSON values and their compact text

A value keeps what its text says: an object is the list of its members in order, with repeated
names, and a number is its digits.  `Json.render` writes without spaces; in a string only the
double quote, the backslash and the characters below U+0020 are escaped, so that a value is always
one line.
-/

namespace Cadence

/-- A JSON value. -/
inductive Json where
  | null
  | bool (b : Bool)
  | number (numeral : List Char)
  | string (s : String)
  | array (items : List Json)
  | object (members : List (String × Json))

namespace Json

/-- A hexadecimal number of four digits, in lower case. -/
def hex4 (n : Nat) : List Char := [n / 4096, n / 256, n / 16, n].map fun k => Nat.digitChar (k % 16)

/-- How one character of a string is written. -/
def stringChar (c : Char) : List Char :=
  if c = '"' ∨ c = '\\' then ['\\', c]
  else if c.toNat < 0x20 then
    if c.toNat = 8 then ['\\', 'b']
    else if c = '\t' then ['\\', 't']
    else if c = '\n' then ['\\', 'n']
    else if c.toNat = 12 then ['\\', 'f']
    else if c = '\r' then ['\\', 'r']
    else ['\\', 'u'] ++ hex4 c.toNat
  else [c]

/-- A string with its quotes. -/
def renderString (s : String) : List Char :=
  '"' :: s.toList.flatMap stringChar ++ ['"']

mutual

/-- The compact text of a value. -/
def renderChars : Json → List Char
  | null => ['n', 'u', 'l', 'l']
  | bool true => ['t', 'r', 'u', 'e']
  | bool false => ['f', 'a', 'l', 's', 'e']
  | number numeral => numeral
  | string s => renderString s
  | array items => '[' :: renderItems items ++ [']']
  | object members => '\x7b' :: renderMembers members ++ ['\x7d']

/-- The items of an array, with a comma between neighbours. -/
def renderItems : List Json → List Char
  | [] => []
  | [v] => renderChars v
  | v :: rest => renderChars v ++ ',' :: renderItems rest

/-- The members of an object, with a comma between neighbours. -/
def renderMembers : List (String × Json) → List Char
  | [] => []
  | [(k, v)] => renderString k ++ ':' :: renderChars v
  | (k, v) :: rest => renderString k ++ ':' :: renderChars v ++ ',' :: renderMembers rest

end

/-- The compact text of a value. -/
def render (v : Json) : String := String.ofList v.renderChars

end Json

end Cadence
