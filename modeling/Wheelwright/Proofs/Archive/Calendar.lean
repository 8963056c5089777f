import Mathlib.Algebra.GroupWithZero.Nat
import Wheelwright.Archive.Calendar
/-!
# Dates of the calendar

Counting days forward ends at a day that the calendar has: in a year, it is before the year's end
(`yearOf_spec`), and in a month, before the month's (`monthOf_spec`). So a point in time is on a
date of the calendar, and as many days and seconds after the start of 1970 as it was to be, if
cycles of 400 years are counted apart (`momentOf_spec`). Later dates have more days before them
(`dayNumber_lt_dayNumber`).
-/

namespace Wheelwright.Calendar

/-! ## Counting days -/

theorem daysBeforeYear_succ_left (first years : Nat) :
    daysBeforeYear first (years + 1) = yearLength first + daysBeforeYear (first + 1) years := by
  induction years with
  | zero => simp [daysBeforeYear]
  | succ years ih =>
    have hy : first + (years + 1) = first + 1 + years := by omega
    rw [daysBeforeYear, ih, daysBeforeYear, hy, Nat.add_assoc]

/-- The days before a year only grow. -/
theorem daysBeforeYear_mono (first : Nat) {m n : Nat} (h : m ≤ n) :
    daysBeforeYear first m ≤ daysBeforeYear first n := by
  induction h with
  | refl => exact Nat.le_refl _
  | step h ih => exact Nat.le_add_right_of_le ih

/-- A day is found in a year that has it, after the days of the years before. -/
theorem yearOf_spec (year day : Nat) :
    year ≤ (yearOf year day).1 ∧ (yearOf year day).2 < yearLength (yearOf year day).1 ∧
      daysBeforeYear year ((yearOf year day).1 - year) + (yearOf year day).2 = day := by
  fun_induction yearOf year day with
  | case1 year day h => simp [daysBeforeYear, h]
  | case2 year day h ih =>
    obtain ⟨hy, hd, hs⟩ := ih
    refine ⟨Nat.le_of_succ_le hy, hd, ?_⟩
    rw [show ∀ n, year + 1 ≤ n → n - year = n - (year + 1) + 1 by omega,
      daysBeforeYear_succ_left]
    · omega
    · exact hy

theorem sum_monthLengths (year : Nat) : (monthLengths year).sum = yearLength year := by
  unfold monthLengths yearLength
  cases isLeap year <;> rfl

/-- No month is longer than 31 days. -/
theorem getD_monthLengths_le (year k : Nat) : (monthLengths year).getD k 0 ≤ 31 := by
  have hall : ∀ length ∈ monthLengths year, length ≤ 31 := by
    unfold monthLengths
    cases isLeap year <;> decide
  rw [List.getD_eq_getElem?_getD]
  cases hk : (monthLengths year)[k]? with
  | none => exact Nat.zero_le 31
  | some length => exact hall length (List.mem_of_getElem? hk)

/-- A day of the months is found in one that has it, after the days of the months before. -/
theorem monthOf_spec (month : Nat) {lengths : List Nat} {day : Nat} (h : day < lengths.sum) :
    ∃ k, k < lengths.length ∧ (monthOf month lengths day).1 = month + k ∧
      1 ≤ (monthOf month lengths day).2 ∧ (monthOf month lengths day).2 ≤ lengths.getD k 0 ∧
      (lengths.take k).sum + (monthOf month lengths day).2 = day + 1 := by
  induction lengths generalizing month day with
  | nil => simp at h
  | cons length lengths ih =>
    rw [List.sum_cons] at h
    unfold monthOf
    by_cases hd : day < length
    · rw [if_pos hd]
      exact ⟨0, by simp, rfl, Nat.le_add_left 1 day, Nat.succ_le_of_lt hd, by simp⟩
    · rw [if_neg hd]
      have hrest : day - length < lengths.sum := by omega
      obtain ⟨k, hk, hm, hone, hle, hsum⟩ := ih (month + 1) hrest
      refine ⟨k + 1, by simpa using hk, by omega, hone, by simpa using hle, ?_⟩
      rw [List.take_succ_cons, List.sum_cons]
      omega

theorem daysBeforeMonth_eq_sum (year month : Nat) :
    daysBeforeMonth year month = ((monthLengths year).take (month - 1)).sum :=
  List.sum_eq_foldl.symm

/-- A month begins where the one before it ends. -/
theorem daysBeforeMonth_succ (year : Nat) {month : Nat} (h : 1 ≤ month) :
    daysBeforeMonth year (month + 1) =
      daysBeforeMonth year month + (monthLengths year).getD (month - 1) 0 := by
  obtain ⟨k, rfl⟩ : ∃ k, month = k + 1 := ⟨month - 1, by omega⟩
  simp only [daysBeforeMonth_eq_sum, Nat.add_sub_cancel]
  rw [List.take_add_one, List.sum_append, List.getD_eq_getElem?_getD]
  cases (monthLengths year)[k]? <;> simp

/-- The days before a month only grow. -/
theorem daysBeforeMonth_mono (year : Nat) {m n : Nat} (hm : 1 ≤ m) (h : m ≤ n) :
    daysBeforeMonth year m ≤ daysBeforeMonth year n := by
  induction h with
  | refl => exact Nat.le_refl _
  | step h ih =>
    rw [daysBeforeMonth_succ year (Nat.le_trans hm h)]
    exact Nat.le_add_right_of_le ih

/-! ## Dates -/

/-- A date that the calendar has. -/
structure IsDate (year month day : Nat) : Prop where
  month_pos : 1 ≤ month
  month_le : month ≤ 12
  day_pos : 1 ≤ day
  day_le : day ≤ (monthLengths year).getD (month - 1) 0

/-- The days from the start of 1970 to a date. -/
def dayNumber (year month day : Nat) : Nat :=
  daysBeforeYear 1970 (year - 1970) + daysBeforeMonth year month + (day - 1)

variable {year month day : Nat}

/-- A date is before the end of its year. -/
theorem IsDate.le_yearLength (h : IsDate year month day) :
    daysBeforeMonth year month + day ≤ yearLength year := by
  calc daysBeforeMonth year month + day
      ≤ daysBeforeMonth year (month + 1) := by
        rw [daysBeforeMonth_succ year h.month_pos]
        exact Nat.add_le_add_left h.day_le _
    _ ≤ daysBeforeMonth year 13 :=
        daysBeforeMonth_mono year (Nat.le_add_left 1 month) (Nat.succ_le_succ h.month_le)
    _ = yearLength year := by
        rw [daysBeforeMonth_eq_sum, ← sum_monthLengths]
        rfl

/-- The days of a year's dates are those between its start and the start of the next. -/
theorem IsDate.dayNumber_bounds (h : IsDate year month day) (hy : 1970 ≤ year) :
    daysBeforeYear 1970 (year - 1970) ≤ dayNumber year month day ∧
      dayNumber year month day < daysBeforeYear 1970 (year + 1 - 1970) := by
  have hl := h.le_yearLength
  have hd := h.day_pos
  have hs : year + 1 - 1970 = year - 1970 + 1 := by omega
  have hf : 1970 + (year - 1970) = year := by omega
  rw [hs, daysBeforeYear, hf, dayNumber]
  omega

/-- Later dates have more days before them. -/
theorem dayNumber_lt_dayNumber {year' month' day' : Nat} (h : IsDate year month day)
    (h' : IsDate year' month' day') (hy : 1970 ≤ year)
    (hlt : year < year' ∨ year = year' ∧ (month < month' ∨ month = month' ∧ day < day')) :
    dayNumber year month day < dayNumber year' month' day' := by
  rcases hlt with hlt | ⟨rfl, hlt | ⟨rfl, hlt⟩⟩
  · have hb := (h.dayNumber_bounds hy).2
    have hb' := (h'.dayNumber_bounds (by omega)).1
    have hm := daysBeforeYear_mono 1970 (show year + 1 - 1970 ≤ year' - 1970 by omega)
    omega
  · have hm := daysBeforeMonth_mono year (Nat.le_add_left 1 month) hlt
    rw [daysBeforeMonth_succ year h.month_pos] at hm
    have hd := h.day_le
    have hpos := h.day_pos
    unfold dayNumber
    omega
  · have hpos := h.day_pos
    unfold dayNumber
    omega

/-! ## Points in time -/

/-- A cycle has the days of 400 years. -/
theorem daysBeforeYear_cycle : (daysBeforeYear 1970 400 : Int) = cycle := by
  decide +kernel

/-- A day of a cycle is on a date of the calendar in the 400 years from 1970 on. -/
theorem exists_date {number : Nat} (h : (number : Int) < cycle) :
    ∃ year dayOfYear month day, yearOf 1970 number = (year, dayOfYear) ∧
      monthOf 1 (monthLengths year) dayOfYear = (month, day) ∧ 1970 ≤ year ∧ year < 2370 ∧
      IsDate year month day ∧ dayNumber year month day = number := by
  obtain ⟨hy, hd, hs⟩ := yearOf_spec 1970 number
  rcases hyd : yearOf 1970 number with ⟨year, dayOfYear⟩
  rw [hyd] at hy hd hs
  dsimp only at hy hd hs
  -- a later year has a whole cycle before it
  have hlast : year < 2370 := by
    refine Nat.lt_of_not_le fun hn => ?_
    have hm := daysBeforeYear_mono 1970 (show 400 ≤ year - 1970 by omega)
    have hc := daysBeforeYear_cycle
    omega
  rw [← sum_monthLengths] at hd
  obtain ⟨k, hk, hm, hone, hle, hsum⟩ := monthOf_spec 1 hd
  rcases hmd : monthOf 1 (monthLengths year) dayOfYear with ⟨month, day⟩
  rw [hmd] at hm hone hle hsum
  dsimp only at hm hone hle hsum
  have hk12 : k < 12 := hk
  subst hm
  refine ⟨year, dayOfYear, 1 + k, day, rfl, hmd, hy, hlast, ?_, ?_⟩
  · exact ⟨Nat.le_add_right 1 k, by omega, hone, by rwa [Nat.add_sub_cancel_left]⟩
  · rw [dayNumber, daysBeforeMonth_eq_sum, Nat.add_sub_cancel_left]
    omega

/-- A point in time is at a time of day on a date of the calendar. The date is one of the 400 years
from 1970 on, or so many cycles before or after it, and the days and the seconds add up. -/
theorem momentOf_spec (epoch : Int) : ∃ (year : Nat) (cycles : Int),
    1970 ≤ year ∧ year < 2370 ∧ (momentOf epoch).year = year + 400 * cycles ∧
      IsDate year (momentOf epoch).month (momentOf epoch).day ∧
      (momentOf epoch).hour < 24 ∧ (momentOf epoch).minute < 60 ∧ (momentOf epoch).second < 60 ∧
      epoch =
        (cycles * cycle + dayNumber year (momentOf epoch).month (momentOf epoch).day) * 86400 +
          (momentOf epoch).hour * 3600 + (momentOf epoch).minute * 60 +
          (momentOf epoch).second := by
  have hcycle : cycle = 146097 := rfl
  have hnumber : ((epoch / 86400 % cycle).toNat : Int) < cycle := by
    rw [hcycle]
    omega
  obtain ⟨year, dayOfYear, month, day, hyd, hmd, hy, hlast, hdate, hd⟩ := exists_date hnumber
  have hm : momentOf epoch = ⟨year + 400 * (epoch / 86400 / cycle), month, day,
      (epoch % 86400).toNat / 3600, (epoch % 86400).toNat / 60 % 60,
      (epoch % 86400).toNat % 60⟩ := by
    simp only [momentOf, hyd, hmd]
  rw [hm]
  refine ⟨year, epoch / 86400 / cycle, hy, hlast, rfl, hdate, ?_, ?_, ?_, ?_⟩
  · dsimp only
    omega
  · exact Nat.mod_lt _ (by decide)
  · exact Nat.mod_lt _ (by decide)
  · rw [hd]
    dsimp only
    rw [hcycle]
    omega

end Wheelwright.Calendar
