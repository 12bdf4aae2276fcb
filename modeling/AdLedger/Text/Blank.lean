/-!
# Blank characters

The characters with the `White_Space` property, and the removal of such characters from both ends
of a text. `trimBlank` takes away nothing else: what it leaves neither starts nor ends with a blank
character.
-/

namespace AdLedger.Text

/-- Whether a character has the `White_Space` property. -/
def isBlank (c : Char) : Bool :=
  let n := c.toNat
  (9 ≤ n && n ≤ 13) || n == 0x20 || n == 0x85 || n == 0xa0 || n == 0x1680 ||
    (0x2000 ≤ n && n ≤ 0x200a) || n == 0x2028 || n == 0x2029 || n == 0x202f || n == 0x205f ||
    n == 0x3000

/-- A text without the blank characters at its start. -/
def skipBlank (s : List Char) : List Char := s.dropWhile isBlank

/-- A text without the blank characters at either end. -/
def trimBlank (s : List Char) : List Char := (skipBlank (skipBlank s).reverse).reverse

/-- A text is blank when it holds blank characters only; the empty text is blank. -/
def allBlank (s : List Char) : Bool := s.all isBlank

@[simp] theorem skipBlank_nil : skipBlank [] = [] := rfl

@[simp] theorem trimBlank_nil : trimBlank [] = [] := rfl

end AdLedger.Text
