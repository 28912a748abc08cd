/-!
# Cadence.Text.Blank — white space

White space is the Unicode property `White_Space`: twenty-five characters, among them the ASCII
controls from tab to carriage return, next line and the ideographic space.  `trim` removes it at
both ends, `words` cuts at its runs.  Text is worked on as a list of characters; the functions on
`String` only change the representation.
-/

namespace Cadence.Text

/-- The characters with the Unicode property `White_Space`. -/
def isBlank (c : Char) : Bool :=
  let n := c.toNat
  (9 ≤ n && n ≤ 13) || n == 0x20 || n == 0x85 || n == 0xA0 || n == 0x1680 ||
    (0x2000 ≤ n && n ≤ 0x200A) || n == 0x2028 || n == 0x2029 || n == 0x202F || n == 0x205F ||
    n == 0x3000

/-- The five ASCII blanks: tab, line feed, form feed, carriage return and space. -/
def isAsciiBlank (b : UInt8) : Bool :=
  b == 0x09 || b == 0x0A || b == 0x0C || b == 0x0D || b == 0x20

/-- The text without its leading white space. -/
def trimStart (s : List Char) : List Char := s.dropWhile isBlank

/-- The text without its trailing white space. -/
def trimEnd (s : List Char) : List Char := (s.reverse.dropWhile isBlank).reverse

/-- The text without white space at either end. -/
def trim (s : List Char) : List Char := trimEnd (trimStart s)

/-- The pieces between the elements that satisfy `p`; one piece more than there are such elements. -/
def cut {α : Type} (p : α → Bool) : List α → List (List α)
  | [] => [[]]
  | c :: r =>
    if p c then [] :: cut p r
    else
      match cut p r with
      | [] => [[c]]
      | piece :: pieces => (c :: piece) :: pieces

/-- The maximal runs of characters that are not white space. -/
def words (s : List Char) : List (List Char) := (cut isBlank s).filter (!·.isEmpty)

/-- `trim` on strings. -/
def trimmed (s : String) : String := String.ofList (trim s.toList)

/-- No character, or nothing but white space. -/
def isBlankText (s : String) : Bool := s.toList.all isBlank

/-! ### Small lemmas -/

@[simp] theorem trim_nil : trim [] = [] := rfl

theorem cut_ne_nil {α : Type} (p : α → Bool) (s : List α) : cut p s ≠ [] := by
  cases s with
  | nil => simp [cut]
  | cons c r =>
    simp only [cut]
    split
    · simp
    · split <;> simp

/-- Core's class of blanks is contained in this one. -/
theorem isBlank_of_isWhitespace {c : Char} (h : c.isWhitespace = true) : isBlank c = true := by
  simp only [Char.isWhitespace, Bool.or_eq_true, decide_eq_true_eq] at h
  rcases h with ((h | h) | h) | h <;> subst h <;> decide

end Cadence.Text
