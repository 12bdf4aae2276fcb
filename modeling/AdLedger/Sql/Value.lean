import AdLedger.Sql.Real

/-!
# Values of the database

What a cell of a table can hold, the order among values, and the two affinities of columns. A column
for integers turns text that reads as a number into that number, a column for text turns numbers
into text; anything else is kept as it is.
-/

namespace AdLedger.Sql

/-- What a cell of a table can hold. -/
inductive Value where
  | null
  | integer (n : Int64)
  | real (x : Real)
  | text (s : String)
  | blob (bytes : List UInt8)
  deriving DecidableEq

/-- A value that a statement can be given, or that a query can return. -/
inductive Scalar where
  | int (n : Int64)
  | text (s : String)
  deriving DecidableEq

def Scalar.toValue : Scalar → Value
  | int n => .integer n
  | text s => .text s

inductive ColumnType where
  | int
  | text
  deriving DecidableEq

/-- A cell of a query's result; `none` where the stored value is not of the declared type. -/
abbrev Cell := Option Scalar

/-- A stored value as a cell of the declared type. -/
def ColumnType.cell : ColumnType → Value → Cell
  | int, .integer n => some (.int n)
  | text, .text s => some (.text s)
  | _, _ => none

namespace Value

/-- Null, then numbers, then texts, then blobs. -/
def kind : Value → Nat
  | null => 0
  | integer _ | real _ => 1
  | text _ => 2
  | blob _ => 3

/-- The order of values: by kind; numbers by value, texts by their characters, blobs by bytes. -/
protected def compare (a b : Value) : Ordering :=
  match a, b with
  | integer m, integer n => compare m.toInt n.toInt
  | integer m, real y => (y.compareTo m.toInt).swap
  | real x, integer n => x.compareTo n.toInt
  | real x, real y => x.compare y
  | text s, text t => if s < t then .lt else if s = t then .eq else .gt
  | blob s, blob t => if s < t then .lt else if s = t then .eq else .gt
  | _, _ => compare a.kind b.kind

/-- Whether a comparison comes out true; a comparison with null never does. -/
def relates (test : Ordering → Bool) (a b : Value) : Bool :=
  a ≠ null && b ≠ null && test (a.compare b)

def eq (a b : Value) : Bool := relates (· == .eq) a b

def le (a b : Value) : Bool := relates (· != .gt) a b

end Value

def isSpace (c : Char) : Bool := c = ' ' || ('\t' ≤ c && c ≤ '\r')

/-- A number as written: sign, digits before and after the point, and a power of ten, if it has a
point or a power. -/
structure Numeral where
  negative : Bool
  whole : List Char
  fraction : Option (List Char)
  exponent : Option Int

namespace Numeral

/-- The digits at the front of a text, and the rest. -/
def digits (s : List Char) : List Char × List Char :=
  (s.takeWhile Char.isDigit, s.dropWhile Char.isDigit)

/-- Takes a sign off the front of a text; without one the number is positive. -/
def sign : List Char → Bool × List Char
  | '-' :: rest => (true, rest)
  | '+' :: rest => (false, rest)
  | s => (false, s)

/-- The number that a text spells with nothing before or after it. -/
def read? (s : List Char) : Option Numeral := do
  let (negative, s) := sign s
  let (whole, s) := digits s
  let (fraction, s) := match s with
    | '.' :: rest => let (run, rest) := digits rest; (some run, rest)
    | _ => (none, s)
  if whole.isEmpty ∧ (fraction.getD []).isEmpty then none
  match s with
  | [] => some ⟨negative, whole, fraction, none⟩
  | e :: rest =>
    if e ≠ 'e' ∧ e ≠ 'E' then none
    let (down, rest) := sign rest
    if rest.isEmpty ∨ !rest.all Char.isDigit then none
    let n : Int := Text.ofDigits rest
    some ⟨negative, whole, fraction, some (if down then -n else n)⟩

/-- An integer of 64 bits if the number has no point and no power and lies in its range, else a real
number. -/
def value (n : Numeral) : Value :=
  let fraction := n.fraction.getD []
  let digits := Text.ofDigits (n.whole ++ fraction)
  let signed : Int := if n.negative then -(digits : Int) else digits
  if n.fraction.isNone && n.exponent.isNone && Int64.minValue.toInt ≤ signed &&
      signed ≤ Int64.maxValue.toInt then
    .integer (Int64.ofInt signed)
  else .real (Real.ofDecimal n.negative digits (n.exponent.getD 0 - fraction.length))

end Numeral

inductive Affinity where
  | integer
  | text
  deriving DecidableEq

namespace Affinity

/-- An integral real number strictly inside the range of 64 bits as an integer. -/
def narrow : Value → Value
  | .real x => match x.integer? with
    | some n => .integer n
    | none => .real x
  | v => v

/-- What a column with this affinity makes of a value. -/
def apply : Affinity → Value → Value
  | integer, .text s =>
    let trimmed := ((s.toList.dropWhile isSpace).reverse.dropWhile isSpace).reverse
    match Numeral.read? trimmed with
    | some n => narrow n.value
    | none => .text s
  | integer, v => narrow v
  | text, .integer n => .text (String.ofList (Text.integer n.toInt))
  | text, .real x => .text x.text
  | text, v => v

@[simp] theorem apply_integer_integer (n : Int64) : apply integer (.integer n) = .integer n := rfl

@[simp] theorem apply_text_text (s : String) : apply text (.text s) = .text s := rfl

end Affinity
end AdLedger.Sql
