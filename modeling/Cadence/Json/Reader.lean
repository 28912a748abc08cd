import Cadence.Json
import Cadence.Json.Numeral

/-!
# Cadence.Json.Reader — strict reading of JSON

The reader takes standard JSON and nothing else: no trailing comma, no character below U+0020 in a
string, no half of a surrogate pair, no number beyond the doubles, at most 127 arrays and objects
inside one another, and only white space after the value.
-/

namespace Cadence.Json

/-- White space between tokens. -/
def isSpace (c : Char) : Bool := c == ' ' || c == '\n' || c == '\t' || c == '\r'

/-- The text without its leading white space. -/
def skip (s : List Char) : List Char := s.dropWhile isSpace

/-- The value of a hexadecimal digit. -/
def hexDigit? (c : Char) : Option Nat :=
  if '0' ≤ c ∧ c ≤ '9' then some (c.toNat - '0'.toNat)
  else if 'a' ≤ c ∧ c ≤ 'f' then some (c.toNat - 'a'.toNat + 10)
  else if 'A' ≤ c ∧ c ≤ 'F' then some (c.toNat - 'A'.toNat + 10)
  else none

/-- The code unit that four hexadecimal digits denote. -/
def unit? (a b c d : Char) : Option Nat := do
  some (4096 * (← hexDigit? a) + 256 * (← hexDigit? b) + 16 * (← hexDigit? c) + (← hexDigit? d))

/-- The character of an escape of one letter. -/
def escape? : Char → Option Char
  | '"' => some '"'
  | '\\' => some '\\'
  | '/' => some '/'
  | 'b' => some '\x08'
  | 'f' => some '\x0c'
  | 'n' => some '\n'
  | 'r' => some '\r'
  | 't' => some '\t'
  | _ => none

/-- What a code unit is, after the first half of a surrogate pair if there is one. -/
inductive Unit16 where
  | char (c : Char)
  | firstHalf (n : Nat)
  | misplaced
deriving DecidableEq, Repr

def unit16 (first : Option Nat) (n : Nat) : Unit16 :=
  match first with
  | some h =>
    if 0xDC00 ≤ n ∧ n ≤ 0xDFFF then .char (Char.ofNat (0x10000 + (h - 0xD800) * 0x400 + (n - 0xDC00)))
    else .misplaced
  | none =>
    if 0xD800 ≤ n ∧ n ≤ 0xDBFF then .firstHalf n
    else if 0xDC00 ≤ n ∧ n ≤ 0xDFFF then .misplaced
    else .char (Char.ofNat n)

/-- Puts a character before the text that was read. -/
def consChar (c : Char) (r : Option (List Char × List Char)) : Option (List Char × List Char) :=
  r.map fun p => (c :: p.1, p.2)

/-- Reads a string after its opening quote: the text and what follows the closing quote.  The first
argument is the first half of a surrogate pair that waits for the second. -/
def readString : Option Nat → List Char → Option (List Char × List Char)
  | _, [] => none
  | first, '"' :: r => if first.isSome then none else some ([], r)
  | first, '\\' :: 'u' :: a :: b :: c :: d :: r =>
    match unit? a b c d with
    | none => none
    | some n =>
      match unit16 first n with
      | .char ch => consChar ch (readString none r)
      | .firstHalf h => readString (some h) r
      | .misplaced => none
  | first, '\\' :: e :: r =>
    if first.isSome then none
    else
      match escape? e with
      | none => none
      | some ch => consChar ch (readString none r)
  | first, c :: r =>
    if first.isSome ∨ c.toNat < 0x20 then none else consChar c (readString none r)

/-- Reads a value from the start of a text, and leaves the rest. -/
abbrev Reader (α : Type) := List Char → Option (α × List Char)

/-- Reads items separated by commas up to the closing bracket; the first argument bounds their
number. -/
def readItems {α : Type} (item : Reader α) (close : Char) : Nat → Reader (List α)
  | 0, _ => none
  | bound + 1, s =>
    match item s with
    | none => none
    | some (a, s) =>
      match skip s with
      | [] => none
      | c :: r =>
        if c = ',' then (readItems item close bound r).map fun p => (a :: p.1, p.2)
        else if c = close then some ([a], r)
        else none

/-- Reads the inside of an array or object after its opening bracket. -/
def readInside {α : Type} (item : Reader α) (close : Char) : Reader (List α) := fun s =>
  match skip s with
  | [] => none
  | c :: r => if c = close then some ([], r) else readItems item close (r.length + 1) (c :: r)

/-- Reads a member of an object. -/
def readMember (value : Reader Json) : Reader (String × Json) := fun s =>
  match skip s with
  | '"' :: r =>
    match readString none r with
    | none => none
    | some (k, r) =>
      match skip r with
      | ':' :: r => (value r).map fun p => ((String.ofList k, p.1), p.2)
      | _ => none
  | _ => none

/-- Reads a value that is neither an array nor an object. -/
def readScalar : Reader Json := fun s =>
  match skip s with
  | 'n' :: 'u' :: 'l' :: 'l' :: r => some (.null, r)
  | 't' :: 'r' :: 'u' :: 'e' :: r => some (.bool true, r)
  | 'f' :: 'a' :: 'l' :: 's' :: 'e' :: r => some (.bool false, r)
  | '"' :: r => (readString none r).map fun p => (.string (String.ofList p.1), p.2)
  | s =>
    match readNumeral s with
    | none => none
    | some (x, r) => if x.isFinite then some (.number x.text, r) else none

/-- Reads a value with at most `depth` arrays and objects inside one another. -/
def readValue : Nat → Reader Json
  | 0 => readScalar
  | depth + 1 => fun s =>
    match skip s with
    | '[' :: r => (readInside (readValue depth) ']' r).map fun p => (.array p.1, p.2)
    | '\x7b' :: r =>
      (readInside (readMember (readValue depth)) '\x7d' r).map fun p => (.object p.1, p.2)
    | s => readScalar s

/-- How many arrays and objects may stand inside one another. -/
def maxDepth : Nat := 127

/-- Reads a text that is one value. -/
def read (s : String) : Option Json :=
  match readValue maxDepth s.toList with
  | none => none
  | some (v, rest) => if (skip rest).isEmpty then some v else none

end Cadence.Json
