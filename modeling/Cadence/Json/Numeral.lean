import Cadence.Text.Count

/-!
# Cadence.Json.Numeral — numbers in JSON text

A numeral is read by the grammar of JSON and refused if it is too large for a double.  Its size is
judged as it would be computed: the leading digits are gathered in a 64-bit significand, every
digit beyond it counts as a power of ten, and significand and power are rounded to doubles before
they are multiplied.
-/

namespace Cadence.Json

/-- A numeral taken apart; the exponent of a text without one is zero. -/
structure Numeral where
  text : List Char
  whole : List Nat
  fraction : List Nat
  exponent : Int
deriving DecidableEq, Repr

/-- The longest run of digits a text begins with, and the rest. -/
def spanDigits : List Char → List Char × List Char
  | [] => ([], [])
  | c :: r =>
    if (Text.digit? c).isSome then (c :: (spanDigits r).1, (spanDigits r).2) else ([], c :: r)

/-- The number that decimal digits denote. -/
def ofDigits (digits : List Nat) : Nat := digits.foldl (fun n d => 10 * n + d) 0

/-- Reads the digits after the decimal point, if there is one. -/
def readFraction : List Char → Option (List Char × List Char)
  | '.' :: r =>
    let (ds, rest) := spanDigits r
    if ds.isEmpty then none else some (ds, rest)
  | s => some ([], s)

/-- Reads the exponent, if there is one: its text, its value and the rest. -/
def readExponent : List Char → Option (List Char × Int × List Char)
  | [] => some ([], 0, [])
  | e :: r =>
    if e = 'e' ∨ e = 'E' then
      let (sign, r) := match r with
        | '+' :: t => (['+'], t)
        | '-' :: t => (['-'], t)
        | t => ([], t)
      let (ds, rest) := spanDigits r
      let value : Int := ofDigits (ds.filterMap Text.digit?)
      if ds.isEmpty then none
      else some (e :: sign ++ ds, if sign = ['-'] then -value else value, rest)
    else some ([], 0, e :: r)

/-- Reads a numeral at the start of a text.  A whole part of several digits begins with none. -/
def readNumeral (s : List Char) : Option (Numeral × List Char) := do
  let (sign, r) := match s with
    | '-' :: t => (['-'], t)
    | t => ([], t)
  let (ds, r) := spanDigits r
  if ds.isEmpty ∨ (ds.head? = some '0' ∧ ds.length ≠ 1) then none
  else
    let (fs, r) ← readFraction r
    let (es, exponent, r) ← readExponent r
    let point := if fs.isEmpty then [] else '.' :: fs
    some (⟨sign ++ ds ++ point ++ es, ds.filterMap Text.digit?, fs.filterMap Text.digit?, exponent⟩,
      r)

/-- A significand of 64 bits, and how many digits came after it was full. -/
def gatherWhole : Nat × Nat → List Nat → Nat × Nat
  | acc, [] => acc
  | (n, beyond), d :: ds =>
    if beyond = 0 ∧ 10 * n + d < Text.countLimit then gatherWhole (10 * n + d, 0) ds
    else gatherWhole (n, beyond + 1) ds

/-- Gathers the fraction into the significand until it is full, and how many digits went in. -/
def gatherFraction : Nat × Nat → List Nat → Nat × Nat
  | acc, [] => acc
  | (n, taken), d :: ds =>
    if 10 * n + d < Text.countLimit then gatherFraction (10 * n + d, taken + 1) ds else (n, taken)

/-- The nearest number with 53 significant bits; a tie goes to the even one. -/
def round53 (n : Nat) : Nat :=
  let drop := Nat.log2 n - 52
  let unit := Nat.pow 2 drop
  let low := n / unit
  let rest := n % unit
  if 2 * rest < unit then low * unit
  else if 2 * rest = unit ∧ low % 2 = 0 then low * unit
  else if rest = 0 then low * unit
  else (low + 1) * unit

/-- Whether a numeral has a finite double. -/
def Numeral.isFinite (x : Numeral) : Bool :=
  let (n, beyond) := gatherWhole (0, 0) x.whole
  let (n, taken) := gatherFraction (n, 0) x.fraction
  let exponent : Int := beyond - taken + x.exponent
  if n = 0 ∨ exponent < 0 then true
  else if exponent > 308 then false
  else round53 (round53 n * round53 (Nat.pow 10 exponent.toNat)) < Nat.pow 2 1024

end Cadence.Json
