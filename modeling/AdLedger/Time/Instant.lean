import AdLedger.Time.Calendar

/-!
# Instants

Points of time with nanoseconds, in the years -262143 to 262142. A leap second is told apart from
the second before it: it shares that second's number and has a billion nanoseconds more. Any second
can have one after it; those that are announced follow the last second of a minute
(`Instant.LeapEndsMinute`). Instants are ordered by second, then by nanoseconds.
-/

namespace AdLedger.Time

/-- The first second of the year -262143, counted from 1970-01-01. -/
def firstSecond : Int := -8334601228800

/-- The last second of the year 262142. -/
def lastSecond : Int := 8210266876799

/-- A point of time: seconds since 1970-01-01, and the nanoseconds within the second. From a billion
nanoseconds on it lies in a leap second that follows. -/
structure Instant where
  second : Int
  nano : Nat
  firstSecond_le : firstSecond ≤ second
  le_lastSecond : second ≤ lastSecond
  nano_lt : nano < 2000000000
  deriving DecidableEq

namespace Instant

/-- The instant with this second and these nanoseconds, where there is one. -/
def ofParts? (second : Int) (nano : Nat) : Option Instant :=
  if h : firstSecond ≤ second ∧ second ≤ lastSecond ∧ nano < 2000000000 then
    some ⟨second, nano, h.1, h.2.1, h.2.2⟩
  else none

/-- The start of 1970. -/
def epoch : Instant := ⟨0, 0, by decide, by decide, by decide⟩

instance : Inhabited Instant := ⟨epoch⟩

def InLeapSecond (t : Instant) : Prop := 1000000000 ≤ t.nano

instance (t : Instant) : Decidable t.InLeapSecond := inferInstanceAs (Decidable (_ ≤ _))

/-- If it is in a leap second, then that is second 60 of its minute. -/
def LeapEndsMinute (t : Instant) : Prop := t.InLeapSecond → t.second % 60 = 59

instance (t : Instant) : Decidable t.LeapEndsMinute := inferInstanceAs (Decidable (_ → _))

/-- By second, then by nanoseconds. -/
protected def le (a b : Instant) : Prop :=
  a.second < b.second ∨ a.second = b.second ∧ a.nano ≤ b.nano

instance : LE Instant := ⟨Instant.le⟩

instance (a b : Instant) : Decidable (a ≤ b) :=
  inferInstanceAs (Decidable (_ ∨ _ ∧ _))

theorem le_def {a b : Instant} :
    a ≤ b ↔ a.second < b.second ∨ a.second = b.second ∧ a.nano ≤ b.nano := Iff.rfl

def daySeconds : Nat := 86400

/-- The instant a number of days earlier. An instant inside a leap second is first moved into the
following second, unless the number is 0. -/
def daysBefore? (t : Instant) (days : Nat) : Option Instant :=
  if days = 0 then some t
  else if t.InLeapSecond then
    ofParts? (t.second + 1 - days * daySeconds) (t.nano - 1000000000)
  else ofParts? (t.second - days * daySeconds) t.nano

/-- The instant without the part finer than a microsecond. -/
def truncate (t : Instant) : Instant where
  second := t.second
  nano := t.nano - t.nano % 1000
  firstSecond_le := t.firstSecond_le
  le_lastSecond := t.le_lastSecond
  nano_lt := by have := t.nano_lt; omega

def date (t : Instant) : Date := Date.ofDays (t.second / daySeconds)

/-- The second of its day in which the instant falls; a leap second counts as the one before. -/
def secondOfDay (t : Instant) : Nat := (t.second % daySeconds).toNat

theorem ofParts?_eq_some {t : Instant} : ofParts? t.second t.nano = some t := by
  simp only [ofParts?]
  rw [dif_pos ⟨t.firstSecond_le, t.le_lastSecond, t.nano_lt⟩]

end Instant
end AdLedger.Time
