import Wheelwright.Archive.Calendar
/-!
# Stamps of archive members

An archive member is stamped with a calendar date and a time of day, packed into two words of 16
bits: years from 1980 to 2107, seconds in steps of two. Points in time outside that range take the
first moment of it.
-/

namespace Wheelwright

/-- A date and a time of day, in UTC; months and days count from one on. -/
structure Stamp where
  year : Nat
  month : Nat
  day : Nat
  hour : Nat
  minute : Nat
  second : Nat
  deriving DecidableEq, Repr

namespace Stamp

/-- A day of the calendar in the years that can be stamped, and a time of that day. -/
def IsValid (s : Stamp) : Prop :=
  1980 ≤ s.year ∧ s.year ≤ 2107 ∧ 1 ≤ s.month ∧ s.month ≤ 12 ∧ 1 ≤ s.day ∧
    s.day ≤ (Calendar.monthLengths s.year).getD (s.month - 1) 0 ∧
    s.hour < 24 ∧ s.minute < 60 ∧ s.second < 60

instance (s : Stamp) : Decidable s.IsValid := by unfold IsValid; infer_instance

/-- The first moment that can be stamped. -/
def earliest : Stamp := ⟨1980, 1, 1, 0, 0, 0⟩

/-- The stamp of a date and time in the years that can be stamped. -/
def ofMoment? (m : Calendar.Moment) : Option Stamp :=
  if 1980 ≤ m.year ∧ m.year ≤ 2107 then
    some ⟨m.year.toNat, m.month, m.day, m.hour, m.minute, m.second⟩
  else none

/-- The date and time of a point in time that can be stamped. -/
def ofEpoch? (epoch : Int) : Option Stamp := (Calendar.utc? epoch).bind ofMoment?

/-- The stamp for a setting: the first moment if nothing is set or it cannot be stamped. -/
def ofSetting (epoch : Option Int) : Stamp := (epoch.bind ofEpoch?).getD earliest

/-- The date in 16 bits. -/
def dosDate (s : Stamp) : Nat := (s.year - 1980) * 512 + s.month * 32 + s.day

/-- The time of day in 16 bits, in steps of two seconds. -/
def dosTime (s : Stamp) : Nat := s.hour * 2048 + s.minute * 32 + s.second / 2

/-- The date and time that two words stand for. -/
def ofDos (date time : Nat) : Stamp :=
  ⟨date / 512 + 1980, date / 32 % 16, date % 32, time / 2048, time / 32 % 64, time % 32 * 2⟩

/-- Seconds since 1970 at the date and time. -/
def epoch (s : Stamp) : Int :=
  let days := Calendar.daysBeforeYear 1970 (s.year - 1970) +
    Calendar.daysBeforeMonth s.year s.month + (s.day - 1)
  Int.ofNat (days * 86400 + s.hour * 3600 + s.minute * 60 + s.second)

/-- A number in at least `width` digits. -/
def padded (width n : Nat) : String :=
  let digits := n.repr.toList
  String.ofList (List.replicate (width - digits.length) '0' ++ digits)

/-- The date and time as people read it. -/
def display (s : Stamp) : String :=
  padded 4 s.year ++ "-" ++ padded 2 s.month ++ "-" ++ padded 2 s.day ++ " " ++
    padded 2 s.hour ++ ":" ++ padded 2 s.minute ++ ":" ++ padded 2 s.second

end Stamp
end Wheelwright
