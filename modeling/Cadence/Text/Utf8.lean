/-!
# Cadence.Text.Utf8 — lenient UTF-8

`lenient` reads any bytes as text.  Well-formed UTF-8 is read as it stands; each maximal part that
could still have become a character but does not, and each byte that cannot begin one, is read as
one U+FFFD.  The reader is a machine that takes one byte at a time: `Awaiting` is the beginning of
a character whose remaining bytes have not come yet.
-/

namespace Cadence.Text.Utf8

abbrev Bytes := List UInt8

/-- The UTF-8 form of a text. -/
def encode (s : List Char) : Bytes := s.flatMap String.utf8EncodeChar

/-- The bytes of a string. -/
def ofString (s : String) : Bytes := encode s.toList

/-- The character that stands for an unreadable part. -/
def replacement : Char := '\uFFFD'

/-- A begun character: the bits read so far, how many bytes are still to come, and the bounds of
the next one. -/
structure Awaiting where
  bits : Nat
  rest : Nat
  low : Nat
  high : Nat
deriving DecidableEq, Repr

/-- What a byte can be where a character begins. -/
inductive Lead where
  | ascii (c : Char)
  | opens (a : Awaiting)
  | stray
deriving DecidableEq, Repr

/-- Reads a byte where a character begins.  The bounds of the second byte exclude overlong forms,
surrogates and values past U+10FFFF. -/
def lead (b : UInt8) : Lead :=
  let n := b.toNat
  if n < 0x80 then .ascii (Char.ofNat n)
  else if n < 0xC2 then .stray
  else if n < 0xE0 then .opens ⟨n - 0xC0, 1, 0x80, 0xBF⟩
  else if n = 0xE0 then .opens ⟨n - 0xE0, 2, 0xA0, 0xBF⟩
  else if n = 0xED then .opens ⟨n - 0xE0, 2, 0x80, 0x9F⟩
  else if n < 0xF0 then .opens ⟨n - 0xE0, 2, 0x80, 0xBF⟩
  else if n = 0xF0 then .opens ⟨n - 0xF0, 3, 0x90, 0xBF⟩
  else if n < 0xF4 then .opens ⟨n - 0xF0, 3, 0x80, 0xBF⟩
  else if n = 0xF4 then .opens ⟨n - 0xF0, 3, 0x80, 0x8F⟩
  else .stray

/-- Reads a byte where a character begins: the characters complete now, and the begun one. -/
def start (b : UInt8) : List Char × Option Awaiting :=
  match lead b with
  | .ascii c => ([c], none)
  | .opens a => ([], some a)
  | .stray => ([replacement], none)

/-- Reads one byte after a begun character, if there is one. -/
def step (state : Option Awaiting) (b : UInt8) : List Char × Option Awaiting :=
  match state with
  | none => start b
  | some a =>
    if a.low ≤ b.toNat ∧ b.toNat ≤ a.high then
      let bits := a.bits * 64 + (b.toNat - 0x80)
      if a.rest ≤ 1 then ([Char.ofNat bits], none)
      else ([], some ⟨bits, a.rest - 1, 0x80, 0xBF⟩)
    else
      let (chars, next) := start b
      (replacement :: chars, next)

/-- Reads the bytes after a begun character; one that stays unfinished is unreadable. -/
def lenientFrom : Option Awaiting → Bytes → List Char
  | none, [] => []
  | some _, [] => [replacement]
  | state, b :: r => (step state b).1 ++ lenientFrom (step state b).2 r

/-- The text of any bytes. -/
def lenient (bs : Bytes) : String := String.ofList (lenientFrom none bs)

end Cadence.Text.Utf8
