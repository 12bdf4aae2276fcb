import AdLedger.Text.Blank
import AdLedger.Text.Digits
import AdLedger.Time.Instant

/-!
# Reading instants

Date, time of day and offset from universal time. Blanks may stand before every number, before the
marks between them and before the offset; a year with a sign may have any number of digits; digits
of the fraction after the ninth are dropped. `Instant.read?` gives `none` for a text of another form
and for a date or time that does not exist.
-/

namespace AdLedger.Time

open Text

/-- A step that takes something off the front of a text, or fails. -/
abbrev Scan := StateT (List Char) Option

namespace Scan

def blanks : Scan Unit := modify skipBlank

def next : Scan Char := fun
  | [] => none
  | c :: rest => some (c, rest)

def mark (c : Char) : Scan Unit := do
  if (← next) = c then pure () else failure

/-- Takes the digits at the front, `most` of them at most. -/
def digits (most : Nat) : Scan (List Char) := fun s =>
  let run := (s.take most).takeWhile Char.isDigit
  if run.isEmpty then none else some (run, s.drop run.length)

/-- Takes blanks and then a number of one or two digits that is at most `greatest`. -/
def number (greatest : Nat) : Scan Nat := do
  blanks
  let n := ofDigits (← digits 2)
  if n ≤ greatest then pure n else failure

/-- Takes blanks and then a year: of any length after a sign, of four digits at most without. -/
def year : Scan Int := do
  blanks
  match ← get with
  | '-' :: rest => set rest; return -(ofDigits (← digits rest.length) : Int)
  | '+' :: rest => set rest; return ofDigits (← digits rest.length)
  | _ => return ofDigits (← digits 4)

/-- Takes a date that exists. -/
def date : Scan Date := do
  let year ← year
  blanks; mark '-'
  let month ← number 12
  blanks; mark '-'
  let day ← number 31
  let d : Date := ⟨year, month, day⟩
  if d.Valid then pure d else failure

/-- Takes the fraction of a second, if there is one, as nanoseconds. -/
def fraction : Scan Nat := do
  match ← get with
  | '.' :: rest =>
    set rest
    let run ← digits 9
    modify (·.dropWhile Char.isDigit)
    return ofDigits run * Nat.pow 10 (9 - run.length)
  | _ => return 0

/-- Takes a time of day: seconds since midnight, and nanoseconds, a billion more of them for a
second 60. -/
def clock : Scan (Nat × Nat) := do
  let hour ← number 23
  blanks; mark ':'
  let minute ← number 59
  blanks; mark ':'
  let second ← number 60
  let nano ← fraction
  let start := hour * 3600 + minute * 60
  if second = 60 then return (start + 59, nano + 1000000000) else return (start + second, nano)

/-- Takes two digits whose number is at most `greatest`. -/
def pair (greatest : Nat) : Scan Nat := do
  let run ← digits 2
  if run.length = 2 ∧ ofDigits run ≤ greatest then pure (ofDigits run) else failure

/-- Takes an offset from universal time, in seconds: `Z`, `UTC` in any case, or a sign, hours and
minutes. -/
def offset : Scan Int := do
  match ← get with
  | u :: t :: c :: rest =>
    if [u.toLower, t.toLower, c.toLower] = ['u', 't', 'c'] then set rest; return 0
  | _ => pure ()
  let sign ← next
  if sign = 'Z' ∨ sign = 'z' then return 0
  if sign ≠ '+' ∧ sign ≠ '-' ∧ sign ≠ '\u2212' then failure
  let hours ← pair 23
  modify (·.dropWhile fun c => c = ':' || isBlank c)
  let minutes ← pair 59
  let seconds : Int := hours * 3600 + minutes * 60
  return if sign = '+' then seconds else -seconds

/-- Takes a date, one of `T`, `t` and a space, a time of day and an offset. Both the local time and
the instant have to exist. -/
def instant : Scan Instant := do
  let date ← date
  let separator ← next
  if separator ≠ 'T' ∧ separator ≠ 't' ∧ separator ≠ ' ' then failure
  let (second, nano) ← clock
  blanks
  let offset ← offset
  let some here := Instant.ofParts? (date.toDays * Instant.daySeconds + second) nano | failure
  let some there := Instant.ofParts? (here.second - offset) nano | failure
  return there

end Scan

/-- The instant that a text denotes; blanks may follow it. -/
def Instant.read? (s : String) : Option Instant := do
  let (t, rest) ← Scan.instant s.toList
  if allBlank rest then some t else none

end AdLedger.Time
