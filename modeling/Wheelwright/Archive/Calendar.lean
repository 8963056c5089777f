/-!
# The Gregorian calendar

Days are counted forward from the first of January of some year, a year and then a month at a time.
After 400 years the calendar repeats itself, so that points in time before the first year or far
after it are a number of such cycles away from one that is counted.
-/

namespace Wheelwright.Calendar

/-- Every fourth year but every hundredth, yet every four-hundredth. -/
def isLeap (year : Nat) : Bool := year % 4 = 0 && (year % 100 ≠ 0 || year % 400 = 0)

/-- The days of a year. -/
def yearLength (year : Nat) : Nat := if isLeap year then 366 else 365

/-- The days of the months of a year. -/
def monthLengths (year : Nat) : List Nat :=
  [31, if isLeap year then 29 else 28, 31, 30, 31, 30, 31, 31, 30, 31, 30, 31]

/-- The year of a day counted from the start of `year`, and the day counted from that year's
start. -/
def yearOf (year day : Nat) : Nat × Nat :=
  if day < yearLength year then (year, day) else yearOf (year + 1) (day - yearLength year)
termination_by day
decreasing_by
  have : 0 < yearLength year := by unfold yearLength; split <;> decide
  omega

/-- The month of a day counted from the start of the first of some months, and the day of that
month, both counted from one on; `month` is the number of the first. -/
def monthOf (month : Nat) : List Nat → Nat → Nat × Nat
  | [], day => (month, day + 1)
  | length :: lengths, day =>
    if day < length then (month, day + 1) else monthOf (month + 1) lengths (day - length)

/-- A date and a time of day, in UTC; there are years before the first. -/
structure Moment where
  year : Int
  month : Nat
  day : Nat
  hour : Nat
  minute : Nat
  second : Nat
  deriving DecidableEq, Repr

/-- The days of 400 years. -/
def cycle : Int := 146097

/-- The date and time so many seconds after the start of 1970, or before it. -/
def momentOf (epoch : Int) : Moment :=
  let day := epoch / 86400
  let second := (epoch % 86400).toNat
  let (year, dayOfYear) := yearOf 1970 (day % cycle).toNat
  let (month, dayOfMonth) := monthOf 1 (monthLengths year) dayOfYear
  ⟨year + 400 * (day / cycle), month, dayOfMonth, second / 3600, second / 60 % 60, second % 60⟩

/-- The date and time of a point in time, for years of up to four digits. -/
def utc? (epoch : Int) : Option Moment :=
  let moment := momentOf epoch
  if -9999 ≤ moment.year ∧ moment.year ≤ 9999 then some moment else none

/-- The days before a year, counted from the start of `first`. -/
def daysBeforeYear (first : Nat) : Nat → Nat
  | 0 => 0
  | years + 1 => daysBeforeYear first years + yearLength (first + years)

/-- The days before a month, which is counted from one on. -/
def daysBeforeMonth (year month : Nat) : Nat :=
  ((monthLengths year).take (month - 1)).foldl (· + ·) 0

end Wheelwright.Calendar
