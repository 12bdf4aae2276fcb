import AdLedger.Time.Instant

/-!
# Platform time

The stored form of an instant: whole microseconds since 1601-01-01 in a signed 64-bit word. A leap
second is counted into the second that follows it. A word that denotes no instant reads as the start
of 1970.
-/

namespace AdLedger.Time

/-- Microseconds from 1601-01-01 to 1970-01-01. -/
def platformShift : Int := 11644473600000000

/-- The 64-bit word nearest to a number. -/
def clamp (n : Int) : Int64 :=
  Int64.ofInt (max Int64.minValue.toInt (min Int64.maxValue.toInt n))

namespace Instant

/-- Whole microseconds since 1970-01-01, rounded towards the past. -/
def micros (t : Instant) : Int := t.second * 1000000 + (t.nano / 1000 : Nat)

/-- The instant this many microseconds after 1970-01-01, where there is one. -/
def ofMicros? (n : Int) : Option Instant :=
  ofParts? (n / 1000000) ((n % 1000000).toNat * 1000)

def toPlatform (t : Instant) : Int64 := clamp (t.micros + platformShift)

def ofPlatform (v : Int64) : Instant :=
  (ofMicros? (clamp (v.toInt - platformShift)).toInt).getD epoch

end Instant
end AdLedger.Time
