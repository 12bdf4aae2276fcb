/-!
# Edit distance

The least number of single characters to insert, delete or replace that turns one text into
another. A row holds the distances of the beginnings of `b`, the empty one first, from the beginning
of `a` that has been gone through; one more character of `a` makes the next row of it.
-/

namespace AdLedger.Names

/-- The row of a text with `x` at its end, after the entry `left`, from the row of the text
itself. -/
def fillRow (x : Char) (left : Nat) : List Char → List Nat → List Nat
  | y :: b, diagonal :: row =>
    let above := row.headD 0
    let cost := if x ≠ y then 1 else 0
    let here := min (min (above + 1) (left + 1)) (diagonal + cost)
    here :: fillRow x here b row
  | _, _ => []

/-- The row for the characters of `a` that are left, from the row for the `i` characters before
them. -/
def lastRow (b : List Char) : Nat → List Char → List Nat → List Nat
  | _, [], row => row
  | i, x :: a, row => lastRow b (i + 1) a ((i + 1) :: fillRow x (i + 1) b row)

/-- The edit distance between two texts. -/
def editDistance (a b : List Char) : Nat :=
  if a.isEmpty then b.length
  else if b.isEmpty then a.length
  else (lastRow b 0 a (List.range (b.length + 1))).getD b.length 0

end AdLedger.Names
