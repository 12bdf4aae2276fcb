import AdLedger.Text.Digits

/-!
# Real numbers of the database

A number that is not an integer of 64 bits is kept as a real number of 53 significant binary digits,
or as an infinity where it is too large. `Real.ofDecimal` takes the nearest such number, an even one
of two equally near; `Real.text` writes fifteen significant decimal digits.
-/

namespace AdLedger.Sql

/-- A stored real number. -/
inductive Real where
  | finite (value : Rat)
  | infinite (negative : Bool)
  deriving DecidableEq

namespace Real

/-- The integer nearest to `num / den`, the even one of two. -/
def nearestEven (num den : Nat) : Nat :=
  let q := num / den
  let r := num % den
  if 2 * r < den then q else if den < 2 * r then q + 1 else if q % 2 = 0 then q else q + 1

/-- The greatest `e` with `2 ^ e * den ≤ num`, for positive `num` and `den`. -/
def binaryExponent (num den : Nat) : Int :=
  let guess : Int := (num.log2 : Int) - den.log2
  let fits : Bool :=
    if 0 ≤ guess then den * Nat.pow 2 guess.toNat ≤ num
    else den ≤ num * Nat.pow 2 (-guess).toNat
  if fits then guess else guess - 1

/-- `n * 2 ^ e`. -/
def scale (n : Int) (e : Int) : Rat :=
  if 0 ≤ e then (n * Nat.pow 2 e.toNat : Int) else mkRat n (Nat.pow 2 (-e).toNat)

/-- The real number nearest to `num / den`. -/
def nearest (negative : Bool) (num den : Nat) : Real :=
  if num = 0 then finite 0 else
  let unit := max (binaryExponent num den - 52) (-1074)
  let digits :=
    if 0 ≤ unit then nearestEven num (den * Nat.pow 2 unit.toNat)
    else nearestEven (num * Nat.pow 2 (-unit).toNat) den
  if 971 < unit ∨ unit = 971 ∧ Nat.pow 2 53 ≤ digits then infinite negative
  else finite (scale (if negative then -(digits : Int) else digits) unit)

/-- The real number nearest to `digits * 10 ^ exponent`. Beyond a few hundred places the value is an
infinity or zero whatever its digits are. -/
def ofDecimal (negative : Bool) (digits : Nat) (exponent : Int) : Real :=
  let places : Int := exponent + (Nat.toDigits 10 digits).length
  if digits = 0 ∨ places < -400 then finite 0
  else if 400 < places then infinite negative
  else if 0 ≤ exponent then nearest negative (digits * Nat.pow 10 exponent.toNat) 1
  else nearest negative digits (Nat.pow 10 (-exponent).toNat)

/-- The integer that a real number is, where it is one strictly inside the range of 64 bits. -/
def integer? : Real → Option Int64
  | finite x =>
    if x.den = 1 ∧ Int64.minValue.toInt < x.num ∧ x.num < Int64.maxValue.toInt then
      some (Int64.ofInt x.num)
    else none
  | infinite _ => none

def compareTo : Real → Rat → Ordering
  | finite x, y => if x < y then .lt else if x = y then .eq else .gt
  | infinite negative, _ => if negative then .lt else .gt

def compare : Real → Real → Ordering
  | a, finite y => a.compareTo y
  | finite x, b => (b.compareTo x).swap
  | infinite a, infinite b => if a = b then .eq else if a then .lt else .gt

/-- The greatest `e` with `10 ^ e * den ≤ num`, for positive `num` and `den`. -/
def decimalExponent (num den : Nat) : Int :=
  if den ≤ num then ((Nat.toDigits 10 (num / den)).length : Int) - 1
  else -((Nat.toDigits 10 ((den + num - 1) / num - 1)).length : Int)

/-- Fifteen significant digits of a positive number `num / den`, a half rounded up, and the power of
ten of the first. -/
def significant (num den : Nat) : Nat × Int :=
  let e := decimalExponent num den
  let shift := 14 - e
  let (n, d) :=
    if 0 ≤ shift then (num * Nat.pow 10 shift.toNat, den)
    else (num, den * Nat.pow 10 (-shift).toNat)
  let digits := (2 * n + d) / (2 * d)
  if digits = Nat.pow 10 15 then (Nat.pow 10 14, e + 1) else (digits, e)

/-- A run of decimals without zeros at its end, but with one digit at least. -/
def decimals (run : List Char) : List Char :=
  let kept := (run.reverse.dropWhile (· = '0')).reverse
  if kept.isEmpty then ['0'] else kept

/-- Fifteen significant digits: with a power of ten below `10 ^ -4` and from `10 ^ 15` on, and
always with a point. -/
def text : Real → String
  | infinite negative => if negative then "-Inf" else "Inf"
  | finite x =>
    if x = 0 then "0.0" else
    let (digits, e) := significant x.num.natAbs x.den
    let run := Nat.toDigits 10 digits
    let body :=
      if e < -4 ∨ 14 < e then
        run.take 1 ++ '.' :: decimals (run.drop 1) ++ ['e', if e < 0 then '-' else '+'] ++
          Text.padded 2 e.natAbs
      else if e < 0 then
        '0' :: '.' :: decimals (List.replicate (e.natAbs - 1) '0' ++ run)
      else run.take (e.toNat + 1) ++ '.' :: decimals (run.drop (e.toNat + 1))
    String.ofList (if x < 0 then '-' :: body else body)

end Real
end AdLedger.Sql
