import AdLedger.Time.Platform

/-!
# Instants through platform time

What is left of an instant that is stored as a word and read again. Every instant is far enough from
the ends of the 64-bit word, so that nothing is cut off there (`toInt_toPlatform`). Outside leap
seconds the whole microseconds are left; an instant in a leap second is read as one in the second
that follows, or as the start of 1970 where no second follows.
-/

namespace AdLedger.Time

theorem toInt_clamp {n : Int} (h : Int64.minValue.toInt ≤ n) (h' : n ≤ Int64.maxValue.toInt) :
    (clamp n).toInt = n := by
  rw [clamp, Int.min_eq_right h', Int.max_eq_right h]
  exact Int64.toInt_ofInt_of_le h (Int.lt_add_one_of_le h')

namespace Instant

/-- Microseconds of an instant fit into a word on either side of the shift. -/
theorem micros_bounds (t : Instant) :
    Int64.minValue.toInt ≤ t.micros ∧ t.micros + platformShift ≤ Int64.maxValue.toInt := by
  have hfirst := t.firstSecond_le
  have hlast := t.le_lastSecond
  have hnano := t.nano_lt
  have hmin : Int64.minValue.toInt = -9223372036854775808 := rfl
  have hmax : Int64.maxValue.toInt = 9223372036854775807 := rfl
  simp only [firstSecond, lastSecond] at hfirst hlast
  simp only [micros, platformShift, hmin, hmax]
  omega

theorem toInt_toPlatform (t : Instant) : t.toPlatform.toInt = t.micros + platformShift := by
  obtain ⟨hmin, hmax⟩ := t.micros_bounds
  exact toInt_clamp (by simp only [platformShift]; omega) hmax

theorem ofPlatform_toPlatform (t : Instant) :
    ofPlatform t.toPlatform = (ofMicros? t.micros).getD epoch := by
  obtain ⟨hmin, hmax⟩ := t.micros_bounds
  rw [ofPlatform, toInt_toPlatform, Int.add_sub_cancel,
    toInt_clamp hmin (by simp only [platformShift] at hmax; omega)]

/-- Outside leap seconds only the part finer than a microsecond is lost. -/
theorem ofPlatform_toPlatform_of_not_leap {t : Instant} (h : ¬ t.InLeapSecond) :
    ofPlatform t.toPlatform = t.truncate := by
  have hnano : t.nano < 1000000000 := Nat.lt_of_not_le h
  have hsecond : t.micros / 1000000 = t.second := by
    simp only [micros]
    omega
  have hrest : (t.micros % 1000000).toNat * 1000 = t.nano - t.nano % 1000 := by
    simp only [micros]
    omega
  have hparts : ofParts? t.second (t.nano - t.nano % 1000) = some t.truncate :=
    ofParts?_eq_some (t := t.truncate)
  rw [ofPlatform_toPlatform, ofMicros?, hsecond, hrest, hparts, Option.getD_some]

/-- An instant in a leap second is read as one in the second that follows, if there is one. -/
theorem ofPlatform_toPlatform_of_leap {t : Instant} (h : t.InLeapSecond) :
    ofPlatform t.toPlatform =
      (ofParts? (t.second + 1) (t.nano - 1000000000 - t.nano % 1000)).getD epoch := by
  have hle : 1000000000 ≤ t.nano := h
  have hlt := t.nano_lt
  have hsecond : t.micros / 1000000 = t.second + 1 := by
    simp only [micros]
    omega
  have hrest : (t.micros % 1000000).toNat * 1000 = t.nano - 1000000000 - t.nano % 1000 := by
    simp only [micros]
    omega
  rw [ofPlatform_toPlatform, ofMicros?, hsecond, hrest]

theorem parts_of_ofParts? {second : Int} {nano : Nat} {t : Instant}
    (h : ofParts? second nano = some t) : t.second = second ∧ t.nano = nano := by
  unfold ofParts? at h
  split at h
  · cases h
    exact ⟨rfl, rfl⟩
  · cases h

/-- A number of whole microseconds, and not inside a leap second. -/
def Whole (t : Instant) : Prop := t.nano % 1000 = 0 ∧ ¬ t.InLeapSecond

/-- What is read from a word is whole. -/
theorem whole_ofPlatform (v : Int64) : (ofPlatform v).Whole := by
  unfold ofPlatform
  generalize (clamp (v.toInt - platformShift)).toInt = n
  cases h : ofMicros? n with
  | none => exact ⟨rfl, by decide⟩
  | some t =>
    obtain ⟨-, hnano⟩ := parts_of_ofParts? h
    have hrest := Int.emod_lt_of_pos n (b := 1000000) (by decide)
    simp only [Option.getD_some, Whole, InLeapSecond, hnano]
    omega

theorem truncate_of_whole {t : Instant} (h : t.Whole) : t.truncate = t := by
  simp only [truncate, h.1, Nat.sub_zero]

/-- An instant is kept if and only if it is whole. -/
theorem ofPlatform_toPlatform_eq_self_iff {t : Instant} :
    ofPlatform t.toPlatform = t ↔ t.Whole := by
  constructor
  · intro h
    exact h ▸ whole_ofPlatform _
  · intro h
    rw [ofPlatform_toPlatform_of_not_leap h.2, truncate_of_whole h]

/-- A second way through a word changes nothing more. -/
@[simp] theorem ofPlatform_toPlatform_ofPlatform (v : Int64) :
    ofPlatform (ofPlatform v).toPlatform = ofPlatform v :=
  ofPlatform_toPlatform_eq_self_iff.2 (whole_ofPlatform v)

end Instant
end AdLedger.Time
