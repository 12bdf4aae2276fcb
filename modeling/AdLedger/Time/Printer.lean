import AdLedger.Text.Digits
import AdLedger.Time.Instant

/-!
# Writing instants

Date and time of day in universal time. A year outside 0 to 9999 has a sign; the fraction has as few
groups of three digits as are exact; a leap second is written as second 60.
-/

namespace AdLedger.Time

open Text

/-- The year with four digits at least, and with a sign where it needs more or is negative. -/
def yearText (year : Int) : List Char :=
  if 0 ≤ year ∧ year ≤ 9999 then padded 4 year.toNat
  else (if year < 0 then '-' else '+') :: padded 4 year.natAbs

def Date.text (d : Date) : List Char :=
  yearText d.year ++ '-' :: padded 2 d.month ++ '-' :: padded 2 d.day

/-- The fraction of a second in nanoseconds, with its point; nothing for a whole second. -/
def fractionText (nano : Nat) : List Char :=
  if nano = 0 then []
  else if nano % 1000000 = 0 then '.' :: padded 3 (nano / 1000000)
  else if nano % 1000 = 0 then '.' :: padded 6 (nano / 1000)
  else '.' :: padded 9 nano

namespace Instant

/-- Hours, minutes and seconds; a leap second is second 60. -/
def clockText (t : Instant) : List Char :=
  let s := t.secondOfDay
  padded 2 (s / 3600) ++ ':' :: padded 2 (s / 60 % 60) ++
    ':' :: padded 2 (s % 60 + if t.InLeapSecond then 1 else 0)

/-- Date and time of day with a `T` between them, the fraction, and a zone. -/
def write (zone : String) (t : Instant) : String :=
  String.ofList (t.date.text ++ 'T' :: t.clockText ++ fractionText (t.nano % 1000000000)) ++ zone

/-- The form used in documents, `2024-03-14T15:09:26.535Z`. -/
def text (t : Instant) : String := t.write "Z"

/-- The form used in messages, `2024-03-14T15:09:26.535+00:00`. -/
def offsetText (t : Instant) : String := t.write "+00:00"

/-- The form used for people, `2024-03-14 15:09:26`. -/
def plainText (t : Instant) : String := String.ofList (t.date.text ++ ' ' :: t.clockText)

end Instant
end AdLedger.Time
