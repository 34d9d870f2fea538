import NtpSuite.Core.ClockDate
import NtpSuite.Theory.Calendar

/-!
# Clock Dates and the Calendar

The conversion of clock dates is that of the calendar. Its day count is that of the
years before, but for a constant, and its months are those of the calendar if the
leap day is added from March on.
-/

namespace NtpSuite.ClockDate

open Gregorian Ntpcal

variable {ct : ClockTime} {y m : Nat}

/-- The date and the time as the calendar has them. -/
def ClockTime.calendar (ct : ClockTime) : Calendar where
  year := .ofInt 16 (fullYear ct.year)
  month := .ofInt 8 ct.month
  monthday := .ofInt 8 ct.day

def ClockTime.daytime (ct : ClockTime) : Daytime :=
  ⟨.ofInt 8 ct.hour, .ofInt 8 ct.minute, .ofInt 8 ct.second⟩

/-- Everything is in range, with a leap second. -/
def ClockTime.InRange (ct : ClockTime) : Prop :=
  (1 ≤ ct.month ∧ ct.month ≤ 12) ∧
    (1 ≤ ct.day ∧ ct.day ≤ monthLength (fullYear ct.year).toNat ct.month.toNat) ∧
    (0 ≤ ct.hour ∧ ct.hour ≤ 23) ∧ (0 ≤ ct.minute ∧ ct.minute ≤ 59) ∧
    0 ≤ ct.second ∧ ct.second ≤ 60

theorem isleap4_iff (y : Nat) : isleap4 y = true ↔ IsLeap y := by
  simp only [isleap4, IsLeap, decide_eq_true_eq,
    Int.tmod_eq_emod_of_nonneg (Int.natCast_nonneg y)]
  omega

theorem daysPerYear_eq (y : Nat) : daysPerYear y = if IsLeap y then 366 else 365 := by
  simp only [daysPerYear, IsLeap, Int.tmod_eq_emod_of_nonneg (Int.natCast_nonneg y)]
  split_ifs <;> omega

theorem monthLength_eq (y : Nat) (hm : 1 ≤ m ∧ m ≤ 12) (day : Int) :
    (if (m : Int) = 2 ∧ daysPerYear y = 366 then day > 29 else day > daysOfMonth.getD m 0) ↔
      ¬day ≤ monthLength y m := by
  rw [daysPerYear_eq]
  obtain ⟨hpos, hle⟩ := hm
  by_cases hleap : IsLeap y <;> interval_cases m <;> simp [monthLength, daysOfMonth, hleap]

theorem daysInMonths_eq (y : Nat) (hm : m < 12) :
    (if (m : Int) + 1 ≥ 3 ∧ isleap4 y then (1 : Int) else 0) + (daysOfMonth.take (m + 1)).sum =
      daysInMonths y m := by
  have htable : ∀ leap : Bool, ∀ m : Nat, m < 12 →
      (if (m : Int) + 1 ≥ 3 ∧ leap then (1 : Int) else 0) + (daysOfMonth.take (m + 1)).sum =
        (realMonthTable leap).getD m 0 := by decide
  rw [← realMonthTable_getD y hm.le, ← htable _ m hm]
  simp only [isleap4_iff, decide_eq_true_eq]

theorem julian0_eq (hy : 1 ≤ y) : julian0 y = daysInYears (y - 1) + 366 := by
  have hsum := daysInYears_eq (y - 1)
  unfold julian0
  rw [Int.tdiv_eq_ediv_of_nonneg (by omega),
    Int.tdiv_eq_ediv_of_nonneg (by omega), Int.tdiv_eq_ediv_of_nonneg (by omega)]
  omega

theorem toNat_ofInt_of_lt {w : Nat} {i : Int} (hlo : 0 ≤ i) (hhi : i < 2 ^ w) :
    ((BitVec.ofInt w i).toNat : Int) = i := by
  rw [BitVec.toNat_ofInt, Int.toNat_of_nonneg (by omega)]
  exact Int.emod_eq_of_lt hlo (by exact_mod_cast hhi)

/-- The calendar's seconds of a date in range. -/
theorem toInt_dateToTime (hlo : 1970 ≤ fullYear ct.year) (hhi : fullYear ct.year ≤ 9999)
    (h : ct.InRange) :
    (ntpcalDateToTime ct.calendar ct.daytime).toInt =
      (daysInYears ((fullYear ct.year).toNat - 1) + daysInMonths (fullYear ct.year).toNat
        (ct.month.toNat - 1) + ct.day - 719163) * 86400 +
        ((ct.hour * 60 + ct.minute) * 60 + ct.second) := by
  obtain ⟨⟨hm1, hm12⟩, ⟨hd1, hd⟩, hhour, hmin, hsec⟩ := h
  have hday : ct.day ≤ 31 := hd.trans (by unfold monthLength; split <;> (try split_ifs) <;> decide)
  have hyear := toNat_ofInt_of_lt (w := 16) (i := fullYear ct.year) (by omega) (by omega)
  have hmonth := toNat_ofInt_of_lt (w := 8) (i := ct.month) (by omega) (by omega)
  have hmday := toNat_ofInt_of_lt (w := 8) (i := ct.day) (by omega) (by omega)
  have hdate : ct.calendar.date = ⟨(fullYear ct.year).toNat, ct.month.toNat, ct.day.toNat⟩ := by
    simp only [ClockTime.calendar, Calendar.date, Date.mk.injEq]
    omega
  have hvalid : ct.calendar.date.Valid := by
    rw [hdate]
    exact ⟨by simp only; omega, by simp only; omega, by simp only; omega, by simp only; omega,
      by simp only; omega⟩
  have hrange := hvalid.inYear.2
  have hsum := daysInYears_eq (fullYear ct.year).toNat
  have hrd := dateToRd_eq hvalid
  rw [hdate] at hrange hrd
  unfold Date.ordinal Date.yearday at hrange hrd
  have hh := toNat_ofInt_of_lt (w := 8) (i := ct.hour) (by omega) (by omega)
  have hmi := toNat_ofInt_of_lt (w := 8) (i := ct.minute) (by omega) (by omega)
  have hs := toNat_ofInt_of_lt (w := 8) (i := ct.second) (by omega) (by omega)
  simp only [ntpcalDateToTime, ntpcalDayjoin, ntpcalDateToDaysec, ntpcalEtimeToSeconds,
    ClockTime.daytime, hh, hmi, hs, hrd, DAY_UNIX_STARTS, SECSPERDAY] at hrange ⊢
  rw [BitVec.toInt_ofInt, Int.bmod_eq_of_le (by omega) (by omega)]
  omega

/-- The seconds that are computed for a date in range. -/
theorem parseToUnixtime_of_inRange (hutc : ct.utctime = 0) (hlo : 1970 ≤ fullYear ct.year)
    (hhi : fullYear ct.year ≤ 9999) (h : ct.InRange) :
    parseToUnixtime ct = .ok ((ntpcalDateToTime ct.calendar ct.daytime).toInt + ct.utcoffset) := by
  rw [toInt_dateToTime hlo hhi h]
  obtain ⟨⟨hm1, hm12⟩, ⟨hd1, hd⟩, hhour, hmin, hsec⟩ := h
  obtain ⟨y, hy⟩ := Int.eq_ofNat_of_zero_le (show 0 ≤ fullYear ct.year by omega)
  obtain ⟨m, hm⟩ := Int.eq_ofNat_of_zero_le (show 0 ≤ ct.month - 1 by omega)
  obtain hmonth : ct.month = (m + 1 : Nat) := by omega
  simp only [parseToUnixtime, hy, hmonth, Int.toNat_natCast, Nat.add_sub_cancel] at hd ⊢
  have hmonths := daysInMonths_eq y (show m < 12 by omega)
  have hyears := julian0_eq (show 1 ≤ y by omega)
  have hepoch : julian0 1970 = 719528 := by decide
  rw [if_neg (not_not.mpr hutc), if_neg (by omega), if_neg (by omega),
    if_neg (by rw [monthLength_eq y ⟨by omega, by omega⟩]; omega), if_neg (by omega),
    if_neg (by omega), if_neg (by omega)]
  unfold times60 times24
  push_cast
  congr 1
  omega

/-- The conversion fails if and only if something is out of range, and otherwise it is
    that of the calendar. -/
theorem parseToUnixtime_spec (ct : ClockTime) (hutc : ct.utctime = 0)
    (hlo : 1970 ≤ fullYear ct.year) (hhi : fullYear ct.year ≤ 9999) :
    ((∃ err, parseToUnixtime ct = .error err) ↔ ¬ct.InRange) ∧
      (ct.InRange → parseToUnixtime ct =
        .ok ((ntpcalDateToTime ct.calendar ct.daytime).toInt + ct.utcoffset)) := by
  refine ⟨⟨?_, fun hbad => ?_⟩, parseToUnixtime_of_inRange hutc hlo hhi⟩
  · rintro ⟨err, herr⟩ h
    rw [parseToUnixtime_of_inRange hutc hlo hhi h] at herr
    cases herr
  · simp only [parseToUnixtime]
    rw [if_neg (not_not.mpr hutc), if_neg (by omega)]
    by_cases hmonth : ct.month ≤ 0 ∨ ct.month > 12
    · exact ⟨_, if_pos hmonth⟩
    obtain ⟨y, hy⟩ := Int.eq_ofNat_of_zero_le (show 0 ≤ fullYear ct.year by omega)
    obtain ⟨m, hm⟩ := Int.eq_ofNat_of_zero_le (show 0 ≤ ct.month by omega)
    have hlen := monthLength_eq y (show 1 ≤ m ∧ m ≤ 12 by omega) ct.day
    rw [if_neg hmonth]
    simp only [ClockTime.InRange, hy, hm, Int.toNat_natCast, hlen] at hbad ⊢
    split_ifs with hday hhour hmin hsec
    · exact ⟨_, rfl⟩
    · exact ⟨_, rfl⟩
    · exact ⟨_, rfl⟩
    · exact ⟨_, rfl⟩
    · omega

theorem parseToUnixtime_spec_leapSecond :
    ∃ t, parseToUnixtime ⟨31, 12, 2016, 23, 59, 60, 0, 0⟩ = .ok t :=
  ⟨_, (parseToUnixtime_spec ⟨31, 12, 2016, 23, 59, 60, 0, 0⟩ rfl (by decide) (by decide)).2
    (by unfold ClockTime.InRange; decide)⟩

end NtpSuite.ClockDate
