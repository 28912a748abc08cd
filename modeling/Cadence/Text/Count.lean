/-!
# Cadence.Text.Count — decimal counts of 64 bits

A count is read with checked arithmetic: a digit that would take the value past 64 bits makes the
whole text unreadable, so that no value ever wraps.  Leading zeros are free.
-/

namespace Cadence.Text

/-- One more than the largest count. -/
def countLimit : Nat := Nat.pow 2 64

/-- The value of an ASCII digit. -/
def digit? (c : Char) : Option Nat :=
  if '0' ≤ c ∧ c ≤ '9' then some (c.toNat - '0'.toNat) else none

/-- Appends a digit to the decimal text of `n`, if the result is still a count. -/
def pushDigit? (n d : Nat) : Option Nat :=
  if 10 * n + d < countLimit then some (10 * n + d) else none

/-- Reads further digits after those that denote `n`. -/
def readDigits? : Nat → List Char → Option Nat
  | n, [] => some n
  | n, c :: r => do readDigits? (← pushDigit? n (← digit? c)) r

/-- Reads a count: ASCII digits only, at least one. -/
def count? : List Char → Option Nat
  | [] => none
  | s => readDigits? 0 s

/-- The decimal digits of `n`, without leading zeros. -/
def decimal (n : Nat) : String := String.ofList (Nat.toDigits 10 n)

end Cadence.Text
