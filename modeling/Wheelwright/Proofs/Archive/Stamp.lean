import Wheelwright.Archive.Stamp
import Wheelwright.Proofs.Archive.Calendar
/-!
# Stamps are dates of the calendar

A stamp is a date of the calendar and a time of day in the years that can be stamped, and it stands
for a point in time (`Stamp.epoch`). Stamps in order stand for points in time in order
(`Stamp.IsValid.isBefore_iff`), so that no two stand for the same one. The main statement is
`Stamp.ofEpoch?_eq_some_iff`: the stamp that is chosen for a point in time is the one that stands
for it, and points in time without a stamp are those before 1980 or after 2107
(`Stamp.ofEpoch?_eq_none_iff`). The two words of a stamp fit into 16 bits each, and are read back as
the stamp, but for an odd second (`Stamp.ofDos_dosDate_dosTime`).
-/

namespace Wheelwright.Stamp

variable {s t : Stamp} {e : Int}

/-! ## Stamps in order -/

/-- One stamp is before another on an earlier date, or at an earlier time of the same date. -/
def IsBefore (s t : Stamp) : Prop :=
  (s.year < t.year ∨ s.year = t.year ∧ (s.month < t.month ∨ s.month = t.month ∧ s.day < t.day)) ∨
    (s.year = t.year ∧ s.month = t.month ∧ s.day = t.day) ∧
      (s.hour < t.hour ∨ s.hour = t.hour ∧
        (s.minute < t.minute ∨ s.minute = t.minute ∧ s.second < t.second))

/-- Of two different stamps one is before the other. -/
theorem isBefore_trichotomy (s t : Stamp) : s.IsBefore t ∨ s = t ∨ t.IsBefore s := by
  obtain ⟨year, month, day, hour, minute, second⟩ := s
  obtain ⟨year', month', day', hour', minute', second'⟩ := t
  simp only [IsBefore, Stamp.mk.injEq]
  omega

theorem IsValid.isDate (h : s.IsValid) : Calendar.IsDate s.year s.month s.day := by
  obtain ⟨-, -, hm₁, hm₂, hd₁, hd₂, -⟩ := h
  exact ⟨hm₁, hm₂, hd₁, hd₂⟩

theorem epoch_eq (s : Stamp) : s.epoch = Calendar.dayNumber s.year s.month s.day * 86400 +
    s.hour * 3600 + s.minute * 60 + s.second := by
  unfold epoch Calendar.dayNumber
  dsimp only
  rw [Int.ofNat_eq_natCast]
  omega

/-- A later stamp stands for a later point in time. -/
theorem IsValid.epoch_lt_epoch (hs : s.IsValid) (ht : t.IsValid) (h : s.IsBefore t) :
    s.epoch < t.epoch := by
  have hdate := hs.isDate
  have hdate' := ht.isDate
  obtain ⟨hy, -, -, -, -, -, hhour, hminute, hsecond⟩ := hs
  rw [epoch_eq, epoch_eq]
  rcases h with hlt | ⟨⟨hyear, hmonth, hday⟩, hlt⟩
  · have hd := Calendar.dayNumber_lt_dayNumber hdate hdate' (by omega) hlt
    omega
  · rw [hyear, hmonth, hday]
    omega

/-- Stamps are in the order of the points in time that they stand for. -/
theorem IsValid.isBefore_iff (hs : s.IsValid) (ht : t.IsValid) :
    s.IsBefore t ↔ s.epoch < t.epoch := by
  constructor
  · exact hs.epoch_lt_epoch ht
  · intro h
    rcases isBefore_trichotomy s t with hlt | rfl | hlt
    · exact hlt
    · exact absurd h (Int.lt_irrefl _)
    · exact absurd (ht.epoch_lt_epoch hs hlt) (Int.lt_asymm h)

/-- No two stamps stand for the same point in time. -/
theorem IsValid.eq_of_epoch_eq (hs : s.IsValid) (ht : t.IsValid) (h : s.epoch = t.epoch) :
    s = t := by
  rcases isBefore_trichotomy s t with hlt | rfl | hlt
  · exact absurd h (Int.ne_of_lt (hs.epoch_lt_epoch ht hlt))
  · rfl
  · exact absurd h.symm (Int.ne_of_lt (ht.epoch_lt_epoch hs hlt))

/-! ## The years that can be stamped -/

/-- The first second of 1980. -/
def firstEpoch : Int := 315532800

/-- The last second of 2107. -/
def lastEpoch : Int := 4354819199

/-- The last moment that can be stamped. -/
def latest : Stamp := ⟨2107, 12, 31, 23, 59, 59⟩

theorem isValid_earliest : earliest.IsValid := by decide

theorem isValid_latest : latest.IsValid := by decide

theorem epoch_earliest : earliest.epoch = firstEpoch := by decide +kernel

theorem epoch_latest : latest.epoch = lastEpoch := by decide +kernel

theorem IsValid.day_le (h : s.IsValid) : s.day ≤ 31 :=
  Nat.le_trans h.isDate.day_le (Calendar.getD_monthLengths_le s.year (s.month - 1))

/-- Stamps stand for points in time from the first second of 1980 to the last one of 2107. -/
theorem IsValid.epoch_bounds (h : s.IsValid) : firstEpoch ≤ s.epoch ∧ s.epoch ≤ lastEpoch := by
  have hday := h.day_le
  rw [← epoch_earliest, ← epoch_latest, ← Int.not_lt, ← Int.not_lt,
    ← h.isBefore_iff isValid_earliest, ← isValid_latest.isBefore_iff h]
  obtain ⟨hy₁, hy₂, hm₁, hm₂, hd₁, -, hh, hmin, hsec⟩ := h
  unfold IsBefore
  constructor
  · dsimp only [earliest]
    omega
  · dsimp only [latest]
    omega

/-! ## The stamp of a point in time -/

/-- The days before the first year that can be stamped, and before the first that cannot. -/
theorem daysBeforeYear_first_last :
    Calendar.daysBeforeYear 1970 10 = 3652 ∧ Calendar.daysBeforeYear 1970 138 = 50403 := by
  decide +kernel

/-- The stamp of a point in time is a valid one and stands for it. -/
theorem isValid_of_ofEpoch? (h : ofEpoch? e = some s) : s.IsValid ∧ s.epoch = e := by
  obtain ⟨year, cycles, hy₁, hy₂, hyear, hdate, hh, hm, hs, he⟩ := Calendar.momentOf_spec e
  unfold ofEpoch? Calendar.utc? at h
  dsimp only at h
  split at h
  · rw [Option.bind_some, ofMoment?] at h
    split at h
    · next hr =>
      -- a year that can be stamped is in the cycle from 1970 on
      have hcycles : cycles = 0 := by omega
      have hnat : (Calendar.momentOf e).year.toNat = year := by omega
      cases h
      rw [hnat]
      refine ⟨⟨?_, ?_, hdate.month_pos, hdate.month_le, hdate.day_pos, hdate.day_le, hh, hm, hs⟩,
        ?_⟩
      · dsimp only
        omega
      · dsimp only
        omega
      · rw [epoch_eq]
        dsimp only
        rw [hcycles] at he
        omega
    · cases h
  · cases h

/-- Every point in time from 1980 to 2107 has a stamp. -/
theorem exists_ofEpoch? (h₁ : firstEpoch ≤ e) (h₂ : e ≤ lastEpoch) : ∃ s, ofEpoch? e = some s := by
  obtain ⟨year, cycles, hy₁, hy₂, hyear, hdate, hh, hm, hs, he⟩ := Calendar.momentOf_spec e
  obtain ⟨hfirst, hlast⟩ := daysBeforeYear_first_last
  obtain ⟨hlow, hhigh⟩ := hdate.dayNumber_bounds hy₁
  have hcycle := Calendar.daysBeforeYear_cycle
  have hwhole := Calendar.daysBeforeYear_mono 1970 (show year + 1 - 1970 ≤ 400 by omega)
  unfold firstEpoch at h₁
  unfold lastEpoch at h₂
  have hc : Calendar.cycle = 146097 := rfl
  rw [hc] at he hcycle
  have hcycles : cycles = 0 := by omega
  have hyear₁ : 1980 ≤ year := by
    refine Nat.le_of_not_lt fun hlt => ?_
    have hmono := Calendar.daysBeforeYear_mono 1970 (show year + 1 - 1970 ≤ 10 by omega)
    omega
  have hyear₂ : year ≤ 2107 := by
    refine Nat.le_of_not_lt fun hlt => ?_
    have hmono := Calendar.daysBeforeYear_mono 1970 (show 138 ≤ year - 1970 by omega)
    omega
  unfold ofEpoch? Calendar.utc? ofMoment?
  dsimp only
  rw [if_pos (by omega), Option.bind_some, if_pos (by omega)]
  exact ⟨_, rfl⟩

/-- The stamp of a point in time is the one that stands for it. -/
theorem ofEpoch?_eq_some_iff : ofEpoch? e = some s ↔ s.IsValid ∧ s.epoch = e := by
  constructor
  · exact isValid_of_ofEpoch?
  · rintro ⟨hs, rfl⟩
    obtain ⟨t, ht⟩ := exists_ofEpoch? hs.epoch_bounds.1 hs.epoch_bounds.2
    obtain ⟨hvalid, hepoch⟩ := isValid_of_ofEpoch? ht
    rw [ht, hvalid.eq_of_epoch_eq hs hepoch]

/-- Points in time without a stamp are those before 1980 and those after 2107. -/
theorem ofEpoch?_eq_none_iff : ofEpoch? e = none ↔ ¬(firstEpoch ≤ e ∧ e ≤ lastEpoch) := by
  constructor
  · rintro h ⟨h₁, h₂⟩
    obtain ⟨s, hs⟩ := exists_ofEpoch? h₁ h₂
    rw [h] at hs
    cases hs
  · intro h
    cases hs : ofEpoch? e with
    | none => rfl
    | some s =>
      obtain ⟨hvalid, rfl⟩ := isValid_of_ofEpoch? hs
      exact absurd hvalid.epoch_bounds h

/-- The stamp for a setting stands for the point in time that is set, if there is a stamp for it. -/
theorem ofSetting_spec (h₁ : firstEpoch ≤ e) (h₂ : e ≤ lastEpoch) :
    (ofSetting (some e)).IsValid ∧ (ofSetting (some e)).epoch = e := by
  obtain ⟨s, hs⟩ := exists_ofEpoch? h₁ h₂
  rw [ofSetting, Option.bind_some, hs]
  exact isValid_of_ofEpoch? hs

theorem ofSetting_of_not_bounds (h : ¬(firstEpoch ≤ e ∧ e ≤ lastEpoch)) :
    ofSetting (some e) = earliest := by
  rw [ofSetting, Option.bind_some, ofEpoch?_eq_none_iff.2 h]
  rfl

/-- Whatever time is asked for, the stamp is a date and a time of day that can be stamped. -/
theorem isValid_ofSetting (epoch : Option Int) : (ofSetting epoch).IsValid := by
  cases epoch with
  | none => exact isValid_earliest
  | some e =>
    by_cases he : firstEpoch ≤ e ∧ e ≤ lastEpoch
    · exact (ofSetting_spec he.1 he.2).1
    · rw [ofSetting_of_not_bounds he]
      exact isValid_earliest

/-! ## Even seconds -/

/-- The stamp at the even second. -/
def atEvenSecond (s : Stamp) : Stamp := { s with second := s.second / 2 * 2 }

/-- The even second that a setting selects, if it can be stamped. -/
def evenSecond? (epoch : Option Int) : Option Int :=
  (epoch.filter fun e => firstEpoch ≤ e ∧ e ≤ lastEpoch).map (· / 2 * 2)

theorem IsValid.atEvenSecond (h : s.IsValid) : s.atEvenSecond.IsValid := by
  obtain ⟨hy₁, hy₂, hm₁, hm₂, hd₁, hd₂, hh, hmin, hsec⟩ := h
  exact ⟨hy₁, hy₂, hm₁, hm₂, hd₁, hd₂, hh, hmin, Nat.lt_of_le_of_lt (Nat.div_mul_le_self _ 2) hsec⟩

/-- All units but the second are even. -/
theorem epoch_atEvenSecond (s : Stamp) : s.atEvenSecond.epoch = s.epoch / 2 * 2 := by
  rw [epoch_eq, epoch_eq]
  dsimp only [Stamp.atEvenSecond]
  omega

/-- The first moment is an even second, so a stamp's even second is the stamp of the even second
that is selected. -/
theorem atEvenSecond_ofSetting (epoch : Option Int) :
    (ofSetting epoch).atEvenSecond = ofSetting (evenSecond? epoch) := by
  cases epoch with
  | none => rfl
  | some e =>
    by_cases he : firstEpoch ≤ e ∧ e ≤ lastEpoch
    · have heven : firstEpoch ≤ e / 2 * 2 ∧ e / 2 * 2 ≤ lastEpoch := by
        unfold firstEpoch lastEpoch at he ⊢
        omega
      obtain ⟨hvalid, hepoch⟩ := ofSetting_spec he.1 he.2
      obtain ⟨hvalid', hepoch'⟩ := ofSetting_spec heven.1 heven.2
      have hs : evenSecond? (some e) = some (e / 2 * 2) := by
        simp [evenSecond?, Option.filter, he]
      rw [hs]
      apply hvalid.atEvenSecond.eq_of_epoch_eq hvalid'
      rw [epoch_atEvenSecond, hepoch, hepoch']
    · have hs : evenSecond? (some e) = none := by
        simp [evenSecond?, Option.filter, he]
      rw [hs, ofSetting_of_not_bounds he]
      rfl

/-! ## Stamps in words -/

@[simp] theorem dosDate_atEvenSecond (s : Stamp) : s.atEvenSecond.dosDate = s.dosDate := rfl

@[simp] theorem dosTime_atEvenSecond (s : Stamp) : s.atEvenSecond.dosTime = s.dosTime := by
  simp [dosTime, atEvenSecond]

theorem IsValid.dosDate_lt (h : s.IsValid) : s.dosDate < 65536 := by
  have hday := h.day_le
  obtain ⟨-, hy, -, hm, -⟩ := h
  unfold dosDate
  omega

theorem IsValid.dosTime_lt (h : s.IsValid) : s.dosTime < 65536 := by
  obtain ⟨-, -, -, -, -, -, hh, hm, hs⟩ := h
  unfold dosTime
  omega

/-- The words of a stamp are read back as the stamp, at the even second. -/
theorem ofDos_dosDate_dosTime (h : s.IsValid) :
    ofDos s.dosDate s.dosTime = s.atEvenSecond := by
  have hday := h.day_le
  obtain ⟨hy₁, hy₂, hm₁, hm₂, hd₁, -, hh, hmin, hsec⟩ := h
  obtain ⟨year, month, day, hour, minute, second⟩ := s
  dsimp only at *
  unfold ofDos dosDate dosTime atEvenSecond
  simp only [Stamp.mk.injEq]
  refine ⟨?_, ?_, ?_, ?_, ?_, ?_⟩ <;> omega

end Wheelwright.Stamp
