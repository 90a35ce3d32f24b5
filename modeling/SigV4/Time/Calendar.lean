/-!
# SigV4.Time.Calendar

The proleptic Gregorian calendar: the leap rule of today for all years, with a year 0 before year 1.

* `daysBeforeYear` — days from 1 January of year 1 to 1 January of a year, negative before it.
* `Date.toDays`    — days since 1 January 1970.
* `Date.ofDays`    — the date of such a day. The year is found by dividing by the mean length of a
  year and looking one year to either side, the month by walking along the months.
-/

namespace SigV4

structure Date where
  year : Int
  month : Nat
  day : Nat
deriving DecidableEq

def isLeapYear (year : Int) : Bool := year % 4 == 0 && (year % 100 != 0 || year % 400 == 0)

def monthLengths (year : Int) : List Nat :=
  [31, if isLeapYear year then 29 else 28, 31, 30, 31, 30, 31, 31, 30, 31, 30, 31]

def daysBeforeYear (year : Int) : Int :=
  365 * (year - 1) + (year - 1) / 4 - (year - 1) / 100 + (year - 1) / 400

theorem isLeapYear_iff {year : Int} :
    isLeapYear year = true ↔ year % 4 = 0 ∧ (year % 100 ≠ 0 ∨ year % 400 = 0) := by
  simp [isLeapYear]

/-- The days of some months together. -/
def daysIn : List Nat → Nat
  | [] => 0
  | length :: rest => length + daysIn rest

theorem daysIn_monthLengths (year : Int) :
    daysIn (monthLengths year) = if isLeapYear year then 366 else 365 := by
  simp only [monthLengths, daysIn]
  split <;> rfl

theorem daysBeforeYear_succ (year : Int) :
    daysBeforeYear (year + 1) = daysBeforeYear year + daysIn (monthLengths year) := by
  rw [daysIn_monthLengths]
  by_cases h : isLeapYear year = true
  · have := isLeapYear_iff.1 h
    simp only [h, if_true, daysBeforeYear]
    omega
  · have := mt isLeapYear_iff.2 h
    simp only [h, Bool.false_eq_true, if_false, daysBeforeYear]
    omega

/-- The year of day `n`, day 0 being 1 January of year 1. -/
def yearOfDay (n : Int) : Int :=
  let guess := 400 * n / 146097 + 1
  if n < daysBeforeYear guess then guess - 1
  else if daysBeforeYear (guess + 1) ≤ n then guess + 1
  else guess

theorem daysBeforeYear_yearOfDay_le (n : Int) : daysBeforeYear (yearOfDay n) ≤ n := by
  simp only [yearOfDay]
  split
  · simp only [daysBeforeYear]; omega
  · split <;> omega

theorem lt_daysBeforeYear_yearOfDay (n : Int) : n < daysBeforeYear (yearOfDay n + 1) := by
  simp only [yearOfDay]
  split
  · next h => simpa using h
  · split
    · simp only [daysBeforeYear]; omega
    · omega

/-- Month and day of the day that follows `n` others, along a list of month lengths. -/
def monthAndDay : List Nat → Nat → Nat × Nat
  | [], n => (1, n + 1)
  | length :: rest, n =>
    if n < length then (1, n + 1)
    else
      let p := monthAndDay rest (n - length)
      (p.1 + 1, p.2)

namespace Date

/-- Whether the month and the day exist. -/
def Valid (d : Date) : Prop :=
  1 ≤ d.month ∧ d.month ≤ 12 ∧ 1 ≤ d.day ∧ d.day ≤ (monthLengths d.year).getD (d.month - 1) 0

instance (d : Date) : Decidable d.Valid :=
  inferInstanceAs (Decidable (_ ∧ _ ∧ _ ∧ _))

def toDays (d : Date) : Int :=
  daysBeforeYear d.year - daysBeforeYear 1970 + daysIn ((monthLengths d.year).take (d.month - 1)) +
    (d.day - 1)

def ofDays (n : Int) : Date :=
  let day := n + daysBeforeYear 1970
  let year := yearOfDay day
  let p := monthAndDay (monthLengths year) (day - daysBeforeYear year).toNat
  { year, month := p.1, day := p.2 }

end Date

end SigV4
