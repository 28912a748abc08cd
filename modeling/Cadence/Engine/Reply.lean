import Cadence.Engine
import Cadence.Text.Count
import Cadence.Text.Line
import Cadence.Text.Utf8

/-!
# Cadence.Engine.Reply — replies of an engine behind a prompt

The engine prints what it likes, its own prompt included, and then waits behind a prompt.  So each
command is followed by one that prints a mark of its own, and a reply is what comes before that
mark, once the mark, a line end and the prompt have arrived.  A reply is searched for lines of a
fixed form: diagnostics, which begin with a tag such as `[ARGACCES2]`, and the count of fired rules.
-/

namespace Cadence.Engine

open Text.Utf8 (Bytes)

/-- What the engine prints when it waits for a command. -/
def prompt : Bytes := Text.Utf8.ofString "CLIPS> "

/-! ### Marks -/

/-- The lower-case hexadecimal digits. -/
def isHexDigit (c : Char) : Bool := ('0' ≤ c && c ≤ '9') || ('a' ≤ c && c ≤ 'f')

/-- The mark that ends one reply: thirty-two hexadecimal digits in a fixed frame. -/
structure Mark where
  digits : List Char
  size : digits.length = 32
  isHex : digits.all isHexDigit = true
deriving DecidableEq

namespace Mark

/-- The text that is printed. -/
def text (m : Mark) : String := "<<end " ++ String.ofList m.digits ++ ">>"

def bytes (m : Mark) : Bytes := Text.Utf8.ofString m.text

/-- The command that prints it. -/
def command (m : Mark) : String := "(printout t \"" ++ m.text ++ "\" crlf)"

/-- The last `k` hexadecimal digits of a number. -/
def digitsOf : Nat → Nat → List Char
  | 0, _ => []
  | k + 1, n => digitsOf k (n / 16) ++ [Nat.digitChar (n % 16)]

theorem length_digitsOf (k n : Nat) : (digitsOf k n).length = k := by
  induction k generalizing n with
  | zero => rfl
  | succ k ih => simp [digitsOf, ih]

theorem isHexDigit_digitChar (n : Nat) : isHexDigit (Nat.digitChar (n % 16)) = true := by
  have h : n % 16 < 16 := Nat.mod_lt _ (by decide)
  revert h
  generalize n % 16 = d
  revert d
  decide

theorem all_isHexDigit_digitsOf (k n : Nat) : (digitsOf k n).all isHexDigit = true := by
  induction k generalizing n with
  | zero => rfl
  | succ k ih => simp [digitsOf, ih, isHexDigit_digitChar]

/-- The mark with a number. -/
def numbered (n : Nat) : Mark := ⟨digitsOf 32 n, length_digitsOf 32 n, all_isHexDigit_digitsOf 32 n⟩

end Mark

/-! ### Framing -/

/-- The list without `suffix`, if it ends in it. -/
def dropSuffix? (suffix s : Bytes) : Option Bytes :=
  if suffix.isSuffixOf s then some (s.take (s.length - suffix.length)) else none

/-- What comes before and after the last occurrence of a mark. -/
def splitLast? (mark : Bytes) : Bytes → Option (Bytes × Bytes)
  | [] => none
  | b :: r =>
    match splitLast? mark r with
    | some (before, after) => some (b :: before, after)
    | none =>
      if mark.isPrefixOf (b :: r) then some ([], (b :: r).drop mark.length) else none

/-- The reply in what has arrived so far, if it is complete: after the last mark there is white
space and the prompt, and one prompt right before the mark belongs to the mark. -/
def split? (arrived mark : Bytes) : Option String :=
  if prompt.isSuffixOf arrived then
    match splitLast? mark arrived with
    | none => none
    | some (head, after) =>
      match dropSuffix? prompt after with
      | none => none
      | some tail =>
        if tail.all Text.isAsciiBlank then
          some (Text.Utf8.lenient ((dropSuffix? prompt head).getD head))
        else none
  else none

/-- `split?` for any bytes as mark.  Where a prompt has arrived, a mark without bytes cannot be
searched for. -/
def inspect (arrived mark : Bytes) : Except Payload (Option String) :=
  if prompt.isSuffixOf arrived && mark.isEmpty then .error (.text "window size must be non-zero")
  else .ok (split? arrived mark)

/-! ### Lines of a fixed form -/

/-- The first answer of `f` on what follows a line start; the flag says whether the text itself is
at one. -/
def firstAtLineStart {α : Type} (f : List Char → Option α) : Bool → List Char → Option α
  | atStart, [] => if atStart then f [] else none
  | atStart, c :: r =>
    match if atStart then f (c :: r) else none with
    | some a => some a
    | none => firstAtLineStart f (c == '\n') r

/-- The text without `start`, if it begins with it. -/
def dropPrefix? : List Char → List Char → Option (List Char)
  | [], s => some s
  | c :: start, d :: s => if c = d then dropPrefix? start s else none
  | _ :: _, [] => none

def isUpper (c : Char) : Bool := 'A' ≤ c && c ≤ 'Z'

def isDigit (c : Char) : Bool := '0' ≤ c && c ≤ '9'

/-- Whether a text begins with a diagnostic tag: letters and then digits in brackets. -/
def beginsWithTag : List Char → Bool
  | '[' :: r =>
    let digits := r.dropWhile isUpper
    !(r.takeWhile isUpper).isEmpty && !(digits.takeWhile isDigit).isEmpty &&
      (digits.dropWhile isDigit).head? == some ']'
  | _ => false

/-- Whether a reply has a diagnostic: at some line start a tag comes next, white space aside. -/
def hasDiagnostic (reply : List Char) : Bool :=
  (firstAtLineStart (fun s => if beginsWithTag (Text.trimStart s) then some () else none)
    true reply).isSome

/-- The text of a diagnostic: the whole reply, trimmed. -/
def diagnostic? (reply : String) : Option String :=
  if hasDiagnostic reply.toList then some (Text.trimmed reply) else none

/-- The digits of a count of fired rules at the start of a text. -/
def firedDigits? (s : List Char) : Option (List Char) :=
  let s := Text.trimStart s
  let digits := s.takeWhile isDigit
  let rest := (dropPrefix? " rule".toList (s.dropWhile isDigit)).bind fun r =>
    (dropPrefix? "s fired".toList r).or (dropPrefix? " fired".toList r)
  if !digits.isEmpty && rest.isSome then some digits else none

/-- How many rules fired, by the first line that says so; a count past 64 bits says nothing. -/
def rulesFired (reply : String) : Nat :=
  ((firstAtLineStart firedDigits? true reply.toList).bind Text.count?).getD 0

end Cadence.Engine
