import Cadence.Text.GraphemeExtend

/-!
# Cadence.Text.Quoted — a text shown between double quotes

A shown text never hides a character: a double quote and a backslash are preceded by a backslash,
the line feed, carriage return, tab and NUL have a letter of their own, and a character that is
unprintable or would join the quote before it is written as its code point in hexadecimal.
-/

namespace Cadence.Text

/-- The lower-case hexadecimal digits of `n`, without leading zeros. -/
def hex (n : Nat) : List Char := Nat.toDigits 16 n

/-- How one character of a shown text is written. -/
def quotedChar (c : Char) : List Char :=
  if c = '"' ∨ c = '\\' then ['\\', c]
  else if c = '\n' then ['\\', 'n']
  else if c = '\r' then ['\\', 'r']
  else if c = '\t' then ['\\', 't']
  else if c.toNat = 0 then ['\\', '0']
  else if isGraphemeExtend c || isUnprintable c then
    ['\\', 'u', '\x7b'] ++ hex c.toNat ++ ['\x7d']
  else [c]

/-- The text between double quotes. -/
def quoted (s : String) : String :=
  String.ofList ('"' :: s.toList.flatMap quotedChar ++ ['"'])

end Cadence.Text
