/-!
# Calendar

Dates of the Gregorian calendar, carried on in both directions, and the number of days from
1970-01-01 to each. Both conversions count years from March, so that a leap day is the last day of
its year, and in eras of 400 years, which all have the same length.

## Main statements

- `Date.ofDays_valid`: a day's date is a valid one.
- `Date.toDays_ofDays`: the date of a day lies that many days from 1970-01-01.
-/

namespace AdLedger.Time

/-- A year, a month from 1 to 12, and a day of the month from 1. -/
structure Date where
  year : Int
  month : Nat
  day : Nat
  deriving DecidableEq

def isLeapYear (year : Int) : Bool :=
  year % 4 = 0 && (year % 100 ≠ 0 || year % 400 = 0)

def daysInMonth (year : Int) (month : Nat) : Nat :=
  if month = 2 then (if isLeapYear year then 29 else 28)
  else if month = 4 || month = 6 || month = 9 || month = 11 then 30
  else 31

namespace Date

def Valid (d : Date) : Prop :=
  1 ≤ d.month ∧ d.month ≤ 12 ∧ 1 ≤ d.day ∧ d.day ≤ daysInMonth d.year d.month

instance (d : Date) : Decidable d.Valid := inferInstanceAs (Decidable (_ ∧ _ ∧ _ ∧ _))

/-- Days from the first of March of a year to a month, the months counted from March. -/
def daysBeforeMonth (month : Nat) : Nat := (153 * month + 2) / 5

/-- The number of days from 1970-01-01 to a date; negative before it. -/
def toDays (d : Date) : Int :=
  let year := if d.month ≤ 2 then d.year - 1 else d.year
  let yearOfEra := (year % 400).toNat
  let dayOfYear := daysBeforeMonth ((d.month + 9) % 12) + d.day - 1
  let dayOfEra := yearOfEra * 365 + yearOfEra / 4 - yearOfEra / 100 + dayOfYear
  year / 400 * 146097 + dayOfEra - 719468

/-- The year of its era that a day of an era falls in, and the day of that year. -/
def yearOfEra (day : Nat) : Nat × Nat :=
  let century := min 3 (day / 36524)
  let inCentury := day - century * 36524
  let cycle := inCentury / 1461
  let inCycle := inCentury - cycle * 1461
  let year := min 3 (inCycle / 365)
  (century * 100 + cycle * 4 + year, inCycle - year * 365)

/-- The date that lies a number of days from 1970-01-01. -/
def ofDays (days : Int) : Date :=
  let shifted := days + 719468
  let (year, dayOfYear) := yearOfEra (shifted % 146097).toNat
  let monthFromMarch := (5 * dayOfYear + 2) / 153
  let month := if monthFromMarch < 10 then monthFromMarch + 3 else monthFromMarch - 9
  { year := shifted / 146097 * 400 + year + (if month ≤ 2 then 1 else 0)
    month
    day := dayOfYear - daysBeforeMonth monthFromMarch + 1 }

/-- A day of an era is the sum of the days of the earlier years and its day in its own year, which
is day 365 in leap years only. -/
theorem yearOfEra_eq {day : Nat} (h : day < 146097) {year dayOfYear : Nat}
    (e : yearOfEra day = (year, dayOfYear)) :
    day = year * 365 + year / 4 - year / 100 + dayOfYear ∧ year < 400 ∧ dayOfYear ≤ 365 ∧
      (dayOfYear = 365 → year % 4 = 3 ∧ (year % 100 = 99 → year = 399)) := by
  simp only [yearOfEra, Prod.mk.injEq] at e
  obtain ⟨hy, hd⟩ := e
  generalize hc : min 3 (day / 36524) = century at hy hd
  generalize hr : day - century * 36524 = inCentury at hy hd
  generalize hq : inCentury / 1461 = cycle at hy hd
  generalize hs : inCentury - cycle * 1461 = inCycle at hy hd
  generalize hz : min 3 (inCycle / 365) = rest at hy hd
  have century_le : century ≤ 3 := by omega
  have inCentury_le : inCentury ≤ 36524 ∧ (inCentury = 36524 → century = 3) := by omega
  have cycle_le : cycle ≤ 24 := by omega
  have inCycle_le : inCycle ≤ 1460 ∧ (inCycle = 1460 → cycle = 24 → century = 3) := by omega
  have rest_le : rest ≤ 3 := by omega
  have quarters : year / 4 = century * 25 + cycle := by omega
  have centuries : year / 100 = century := by omega
  have : day = century * 36524 + cycle * 1461 + rest * 365 + dayOfYear := by omega
  omega

/-- The month and the day of the month are read off the day of a year that starts in March. -/
theorem daysBeforeMonth_le (dayOfYear : Nat) :
    daysBeforeMonth ((5 * dayOfYear + 2) / 153) ≤ dayOfYear ∧
      dayOfYear < daysBeforeMonth ((5 * dayOfYear + 2) / 153 + 1) := by
  unfold daysBeforeMonth
  omega

theorem ofDays_valid (days : Int) : (ofDays days).Valid := by
  rcases e : yearOfEra ((days + 719468) % 146097).toNat with ⟨year, dayOfYear⟩
  obtain ⟨-, year_lt, dayOfYear_le, leap⟩ := yearOfEra_eq (by omega) e
  have bounds := daysBeforeMonth_le dayOfYear
  simp only [ofDays, e, Valid, daysInMonth]
  generalize hm : (5 * dayOfYear + 2) / 153 = m at bounds
  have m_le : m ≤ 11 := by omega
  unfold daysBeforeMonth at *
  have : m = 0 ∨ m = 1 ∨ m = 2 ∨ m = 3 ∨ m = 4 ∨ m = 5 ∨ m = 6 ∨ m = 7 ∨ m = 8 ∨ m = 9 ∨
      m = 10 ∨ m = 11 := by omega
  rcases this with rfl | rfl | rfl | rfl | rfl | rfl | rfl | rfl | rfl | rfl | rfl | rfl <;>
    simp at bounds ⊢ <;> try omega
  split <;> rename_i h
  · omega
  · have : dayOfYear ≠ 365 := by
      intro h365
      apply h
      simp only [isLeapYear, Bool.and_eq_true, Bool.or_eq_true, decide_eq_true_eq]
      have := leap h365
      omega
    omega

theorem toDays_ofDays (days : Int) : (ofDays days).toDays = days := by
  rcases e : yearOfEra ((days + 719468) % 146097).toNat with ⟨year, dayOfYear⟩
  obtain ⟨sum, year_lt, dayOfYear_le, -⟩ := yearOfEra_eq (by omega) e
  have bounds := daysBeforeMonth_le dayOfYear
  simp only [ofDays, e, toDays]
  generalize hm : (5 * dayOfYear + 2) / 153 = m at bounds
  have m_le : m ≤ 11 := by omega
  have back : ((if m < 10 then m + 3 else m - 9) + 9) % 12 = m := by split <;> omega
  rw [back]
  have start : ∀ y : Int, (if (if m < 10 then m + 3 else m - 9) ≤ 2 then
      y + (if (if m < 10 then m + 3 else m - 9) ≤ 2 then 1 else 0) - 1
      else y + (if (if m < 10 then m + 3 else m - 9) ≤ 2 then 1 else 0)) = y := by
    intro y; split <;> omega
  rw [start]
  have year_mod : (((days + 719468) / 146097 * 400 + (year : Int)) % 400).toNat = year := by omega
  have year_div : ((days + 719468) / 146097 * 400 + (year : Int)) / 400
      = (days + 719468) / 146097 := by omega
  rw [year_mod, year_div]
  omega

end Date
end AdLedger.Time
