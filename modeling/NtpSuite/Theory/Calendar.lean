import NtpSuite.Core.Calendar
import NtpSuite.Lib.Gregorian

/-!
# Dates and Days

The two conversions are inverse to each other, and they are those of the Gregorian
calendar.

The source divides with a remainder that has the sign of the dividend, and corrects
the result if that is negative. This is the division that rounds down. Days in years
are then a sum of three quotients, and months out of range carry into the years.

The days in elapsed years are those of the calendar, so are the days in elapsed
months, although the source counts them from March. `splitEradays_spec` and
`splitYeardays_spec` say that the two splits find the year and the month back. What
is left is to see that the numbers fit into the members of a `struct calendar`.

## Main definitions

* `Calendar.date`: The date of a `struct calendar`.

## Theorems

* `tdiv_floor`, `tmod_floor`: The corrected division.
* `daysInYears_floor`, `eradays_floor`: Any number of years, months and days.
* `daysInYears_spec`, `eradays_spec`: Dates to days.
* `splitEradays_spec`, `splitYeardays_spec`: Days to dates.
* `gregorian_calendar`: The conversions.
-/

namespace NtpSuite.Ntpcal

open Gregorian

/-- The date of a `struct calendar`. -/
def Calendar.date (jd : Calendar) : Date := ⟨jd.year.toNat, jd.month.toNat, jd.monthday.toNat⟩

/-! ### Division -/

/-- The remainder is negative for a negative dividend that is no multiple. -/
theorem tmod_neg_iff (a : Int) {c : Int} (hc : 0 < c) : a.tmod c < 0 ↔ ¬ (0 ≤ a ∨ c ∣ a) := by
  have hlow := Int.emod_nonneg a hc.ne'
  have hhigh := Int.emod_lt_of_pos a hc
  rw [Int.tmod_eq_emod]
  split_ifs with h
  · omega
  · omega

theorem tdiv_floor (a : Int) {c : Int} (hc : 0 < c) :
    (if a.tmod c < 0 then a.tdiv c - 1 else a.tdiv c) = a / c := by
  rw [Int.tdiv_eq_ediv, Int.sign_eq_one_of_pos hc]
  simp only [tmod_neg_iff a hc]
  split_ifs <;> omega

theorem tmod_floor (a : Int) {c : Int} (hc : 0 < c) :
    (if a.tmod c < 0 then a.tmod c + c else a.tmod c) = a % c := by
  simp only [tmod_neg_iff a hc]
  rw [Int.tmod_eq_emod]
  split_ifs <;> omega

/-! ### From dates to days -/

theorem daysInYears_floor (y : Int) :
    ntpcalDaysInYears y = 365 * y + y / 4 - y / 100 + y / 400 := by
  have hlow : 0 ≤ y % 400 := Int.emod_nonneg y (by decide)
  unfold ntpcalDaysInYears
  simp only [tdiv_floor y (show (0 : Int) < 400 by decide),
    tmod_floor y (show (0 : Int) < 400 by decide), Int.tdiv_eq_ediv_of_nonneg hlow,
    GREGORIAN_CYCLE_DAYS, GREGORIAN_NORMAL_CENTURY_DAYS, GREGORIAN_NORMAL_LEAP_CYCLE_DAYS,
    DAYSPERYEAR]
  omega

theorem daysInMonths_floor (m : Int) :
    ntpcalDaysInMonths m =
      ⟨m / 12 + if m % 12 < 2 then 0 else 1,
        shiftMonthTable.getD (if m % 12 < 2 then m % 12 + 10 else m % 12 - 2).toNat 0 - 306⟩ := by
  have hnorm : (if m < 0 ∨ m ≥ 12 then
      if m.tmod 12 < 0 then (m.tdiv 12 - 1, m.tmod 12 + 12) else (m.tdiv 12, m.tmod 12)
      else (0, m)) = (m / 12, m % 12) := by
    have hdiv := tdiv_floor m (show (0 : Int) < 12 by decide)
    have hmod := tmod_floor m (show (0 : Int) < 12 by decide)
    split_ifs at hdiv hmod ⊢
    · rw [hdiv, hmod]
    · rw [hdiv, hmod]
    · exact Prod.ext (by omega) (by omega)
    · exact Prod.ext (by omega) (by omega)
  unfold ntpcalDaysInMonths
  simp only [hnorm]
  split_ifs
  · simp
  · rfl

theorem eradays_floor (y m d : Int) :
    ntpcalEdateToEradays y m d =
      ntpcalDaysInYears (y + (ntpcalDaysInMonths m).hi) + (ntpcalDaysInMonths m).lo + d := by
  unfold ntpcalEdateToEradays
  by_cases hm : m = 0
  · subst hm
    simp [daysInMonths_floor, shiftMonthTable]
  · simp only [if_pos hm]

theorem isLeapyear_iff (y : Int) :
    isLeapyear y = true ↔ y % 4 = 0 ∧ (y % 100 ≠ 0 ∨ y % 400 = 0) := by
  have hdvd : ∀ c : Int, y.tmod c = 0 ↔ y % c = 0 := fun c =>
    Int.dvd_iff_tmod_eq_zero.symm.trans Int.dvd_iff_emod_eq_zero
  unfold isLeapyear
  simp only [hdvd, Bool.and_eq_true, Bool.not_eq_true', Bool.and_eq_false_iff, decide_eq_true_eq,
    decide_eq_false_iff_not, ne_eq, not_not]

/-- The table counts the months from January, and the other one from March, with the year
    before for the first two. -/
theorem months_table : ∀ leap : Bool, ∀ m < 12, (ntpcalDaysInMonths (m : Nat)).hi = 0 ∧
        (realMonthTable leap).getD m 0 = (ntpcalDaysInMonths m).lo ∨
      (ntpcalDaysInMonths m).hi = 1 ∧
        (realMonthTable leap).getD m 0 =
          (ntpcalDaysInMonths m).lo + if leap then 366 else 365 := by
  decide

theorem realMonthTable_eradays (y : Int) {m : Nat} (hm : m < 12) :
    (realMonthTable (isLeapyear (y + 1))).getD m 0 =
      ntpcalDaysInYears (y + (ntpcalDaysInMonths m).hi) + (ntpcalDaysInMonths m).lo -
        ntpcalDaysInYears y := by
  have hyear : ntpcalDaysInYears (y + 1) =
      ntpcalDaysInYears y + if isLeapyear (y + 1) then 366 else 365 := by
    simp only [daysInYears_floor, isLeapyear_iff]
    split_ifs <;> omega
  obtain ⟨hhi, hlo⟩ | ⟨hhi, hlo⟩ := months_table (isLeapyear (y + 1)) m hm
  · rw [hhi, Int.add_zero]
    omega
  · rw [hhi]
    omega

theorem daysInYears_spec (n : Nat) : ntpcalDaysInYears n = daysInYears n := by
  have hsum := daysInYears_eq n
  rw [daysInYears_floor]
  omega

/-- The days before a month, from the table for leap years or the other. -/
theorem realMonthTable_getD (y : Nat) {m : Nat} (hm : m ≤ 12) :
    (realMonthTable (IsLeap y)).getD m 0 = daysInMonths y m := by
  unfold daysInMonths monthLength realMonthTable
  by_cases hleap : IsLeap y
  · simp only [hleap, decide_true, if_true]
    interval_cases m <;> rfl
  · simp only [hleap, decide_false, Bool.false_eq_true, if_false]
    interval_cases m <;> rfl

theorem eradays_spec (y : Nat) {m : Nat} (hm : m < 12) (d : Int) :
    ntpcalEdateToEradays y m d = daysInYears y + daysInMonths (y + 1) m + d := by
  have hleap : isLeapyear ((y : Int) + 1) = decide (IsLeap (y + 1)) := by
    rw [Bool.eq_iff_iff, isLeapyear_iff, decide_eq_true_eq]
    unfold IsLeap
    omega
  have htable := realMonthTable_eradays y hm
  rw [hleap, realMonthTable_getD (y + 1) hm.le, daysInYears_spec] at htable
  rw [eradays_floor]
  omega

theorem dateToRd_eq {jd : Calendar} (h : jd.date.Valid) : ntpcalDateToRd jd = jd.date.ordinal := by
  obtain ⟨y, hy⟩ := Nat.exists_eq_add_of_le' h.year_pos
  obtain ⟨m, hm⟩ := Nat.exists_eq_add_of_le' h.month_pos
  have hmonth := h.month_le
  simp only [Calendar.date] at hy hm hmonth
  unfold ntpcalDateToRd Date.ordinal Date.yearday Calendar.date
  have hera := eradays_spec y (show m < 12 by omega) (jd.monthday.toNat - 1)
  simp only [hy, hm]
  push_cast
  simp only [Int.add_sub_cancel, hera]
  omega

/-! ### From days to dates -/

/-- Only the fifth year of four has number four, and the fifth century. -/
theorem lor_gt_three {a b : Nat} (ha : a ≤ 4) (hb : b ≤ 4) : (a ||| b) > 3 ↔ a = 4 ∨ b = 4 := by
  interval_cases a <;> interval_cases b <;> decide

/-- The cycles of a day. The last day of 400 years is in a century of its own, and the
    last day of four years in a year of its own. -/
structure Cycles (n n400 n100 n004 n001 yday : Nat) : Prop where
  sum : n = 146097 * n400 + 36524 * n100 + 1461 * n004 + 365 * n001 + yday
  century : n100 = 4 ∧ n004 = 0 ∧ n001 = 0 ∧ yday = 0 ∨ n100 < 4
  four : n004 ≤ 24
  year : n001 = 4 ∧ yday = 0 ∧ n004 < 24 ∨ n001 < 4
  day : yday < 365

theorem cycles_split (n : Nat) :
    Cycles n (n / 146097) (n % 146097 / 36524) (n % 146097 % 36524 / 1461)
      (n % 146097 % 36524 % 1461 / 365) (n % 146097 % 36524 % 1461 % 365) := by
  constructor <;> omega

/-- The year of a day, and the day in the year, from the cycles. -/
theorem Cycles.spec {n n400 n100 n004 n001 yday : Nat}
    (h : Cycles n n400 n100 n004 n001 yday) (y lo : Nat)
    (hy : if n001 = 4 ∨ n100 = 4 then y + 1 = ((4 * n400 + n100) * 25 + n004) * 4 + n001 ∧
        lo = yday + 365
      else y = ((4 * n400 + n100) * 25 + n004) * 4 + n001 ∧ lo = yday) :
    daysInYears y + lo = n ∧ lo < yearLength (y + 1) ∧
      (IsLeap (y + 1) ↔ n001 = 4 ∨ n100 = 4 ∨ n001 = 3 ∧ (n004 ≠ 24 ∨ n100 = 3)) := by
  obtain ⟨hsum, hcentury, hfour, hyear, hday⟩ := h
  have hdays := daysInYears_eq y
  have hleap : IsLeap (y + 1) ↔ n001 = 4 ∨ n100 = 4 ∨ n001 = 3 ∧ (n004 ≠ 24 ∨ n100 = 3) := by
    unfold IsLeap
    split_ifs at hy with hover <;> omega
  refine ⟨?_, ?_, hleap⟩
  · split_ifs at hy with hover <;> omega
  · unfold yearLength
    by_cases hl : IsLeap (y + 1)
    · rw [if_pos hl]
      split_ifs at hy with hover <;> omega
    · rw [if_neg hl]
      rw [hleap] at hl
      split_ifs at hy with hover <;> omega

theorem splitEradays_spec (n : Nat) :
    ∃ y lo : Nat, ntpcalSplitEradays n = (⟨y, lo⟩, decide (IsLeap (y + 1))) ∧
      daysInYears y + lo = n ∧ lo < yearLength (y + 1) := by
  have h := cycles_split n
  have h400 : GREGORIAN_CYCLE_DAYS = ((146097 : Nat) : Int) := rfl
  have h100 : GREGORIAN_NORMAL_CENTURY_DAYS = ((36524 : Nat) : Int) := rfl
  have h004 : GREGORIAN_NORMAL_LEAP_CYCLE_DAYS = ((1461 : Nat) : Int) := rfl
  have h001 : DAYSPERYEAR = ((365 : Nat) : Int) := rfl
  unfold ntpcalSplitEradays
  simp only [h400, h100, h004, h001, ← Int.ofNat_tdiv, ← Int.ofNat_tmod, Int.natCast_nonneg,
    not_lt.mpr, if_false, Int.toNat_natCast]
  generalize n / 146097 = n400 at *
  generalize n % 146097 / 36524 = n100 at *
  generalize n % 146097 % 36524 / 1461 = n004 at *
  generalize n % 146097 % 36524 % 1461 / 365 = n001 at *
  generalize n % 146097 % 36524 % 1461 % 365 = yday at *
  have hor : (n001 ||| n100) > 3 ↔ n001 = 4 ∨ n100 = 4 := by
    have hyear := h.year
    have hcentury := h.century
    exact lor_gt_three (by omega) (by omega)
  by_cases hlast : n001 = 4 ∨ n100 = 4
  · obtain ⟨y, hy⟩ : ∃ y, y + 1 = ((4 * n400 + n100) * 25 + n004) * 4 + n001 :=
      ⟨((4 * n400 + n100) * 25 + n004) * 4 + n001 - 1, by omega⟩
    obtain ⟨hsum, hlo, hleap⟩ := h.spec y (yday + 365) (by rw [if_pos hlast]; exact ⟨hy, rfl⟩)
    have hflag : IsLeap (y + 1) := hleap.mpr (by tauto)
    refine ⟨y, yday + 365, ?_, hsum, hlo⟩
    simp only [hor, if_pos hlast, hflag, decide_true, Prod.mk.injEq, Split.mk.injEq, and_true]
    omega
  · obtain ⟨hsum, hlo, hleap⟩ := h.spec (((4 * n400 + n100) * 25 + n004) * 4 + n001) yday
      (by rw [if_neg hlast]; exact ⟨rfl, rfl⟩)
    refine ⟨_, yday, ?_, hsum, hlo⟩
    simp only [hor, hlast, if_false, hleap, Prod.mk.injEq, Split.mk.injEq]
    refine ⟨⟨by push_cast; ring, trivial⟩, ?_⟩
    apply decide_eq_decide.mpr
    omega

/-- The months begin at most a day too early, or at the right one, for every day. -/
theorem splitYeardays_table :
    ∀ leap : Bool, ∀ lo < if leap then 366 else 365, ∃ m : Nat, m < 12 ∧
      ntpcalSplitYeardays (lo : Nat) leap = ⟨m, lo - (realMonthTable leap).getD m 0⟩ ∧
      (realMonthTable leap).getD m 0 ≤ lo ∧ (lo : Int) < (realMonthTable leap).getD (m + 1) 0 := by
  decide +kernel

theorem splitYeardays_spec (y : Nat) {lo : Nat} (hlo : lo < yearLength y) :
    ∃ m d : Nat, ntpcalSplitYeardays lo (IsLeap y) = ⟨m, d⟩ ∧ m < 12 ∧
      daysInMonths y m + d = lo ∧ d < monthLength y (m + 1) := by
  have hbound : lo < if decide (IsLeap y) = true then 366 else 365 := by
    simpa [yearLength] using hlo
  obtain ⟨m, hm, hsplit, hfrom, hto⟩ := splitYeardays_table _ lo hbound
  rw [realMonthTable_getD y hm.le] at hsplit hfrom
  rw [realMonthTable_getD y hm, daysInMonths_succ] at hto
  refine ⟨m, lo - daysInMonths y m, ?_, hm, ?_, ?_⟩
  · rw [hsplit, Int.ofNat_sub (by exact_mod_cast hfrom)]
  · omega
  · omega

/-! ### The members of the structure -/

theorem toNat_ushortSucc {n : Nat} (h : n + 1 < 2 ^ 16) : (ushortSucc n).toNat = n + 1 := by
  unfold ushortSucc
  rw [BitVec.ofInt_natCast, BitVec.toNat_add, BitVec.toNat_ofNat]
  simp only [BitVec.reduceToNat]
  omega

theorem toNat_ucharSucc {n : Nat} (h : n + 1 < 2 ^ 8) : (ucharSucc n).toNat = n + 1 := by
  unfold ucharSucc
  rw [BitVec.ofInt_natCast, BitVec.toNat_add, BitVec.toNat_ofNat]
  simp only [BitVec.reduceToNat]
  omega

theorem monthLength_le (y m : Nat) : monthLength y m ≤ 31 := by
  unfold monthLength
  split
  · split_ifs <;> omega
  all_goals omega

/-- The day of the week, for a day that is counted from one. -/
theorem weekday_spec (n : Nat) : (ntpcalRdToDate n).1.weekday.toNat = n % 7 := by
  have hmod : (n : Int).tmod 7 = ((n % 7 : Nat) : Int) := (Int.ofNat_tmod n 7).symm
  have hsmall : ¬ BitVec.ofNat 8 (n % 7) ≥ 7 := by
    rw [ge_iff_le, BitVec.le_def, BitVec.toNat_ofNat]
    simp only [BitVec.reduceToNat]
    omega
  unfold ntpcalRdToDate
  simp only [hmod, BitVec.ofInt_natCast, if_neg hsmall, BitVec.toNat_ofNat]
  omega

theorem rdToDate_spec {y n : Nat} (hpos : 1 ≤ y) (hle : y ≤ 65535) (h : InYear y n) :
    (ntpcalRdToDate n).1.date.Valid ∧ (ntpcalRdToDate n).1.date.year = y ∧
      (ntpcalRdToDate n).1.date.ordinal = n ∧
      (ntpcalRdToDate n).1.yearday.toNat = (ntpcalRdToDate n).1.date.yearday ∧
      (ntpcalRdToDate n).2 = if IsLeap y then 1 else 0 := by
  have hn : 1 ≤ n := Nat.one_le_of_lt h.1
  obtain ⟨k, lo, hsplit, hsum, hlo⟩ := splitEradays_spec (n - 1)
  -- The year that was found is the year of the day.
  have hy : y = k + 1 := by
    apply h.unique
    refine ⟨by rw [Nat.add_sub_cancel]; omega, ?_⟩
    rw [daysInYears_succ]
    omega
  subst hy
  obtain ⟨m, d, hmonths, hm, hday, hd⟩ := splitYeardays_spec (k + 1) hlo
  have hrd : ((n : Int) - 1) = ((n - 1 : Nat) : Int) := by omega
  have hlength := monthLength_le (k + 1) (m + 1)
  have hyearlen : yearLength (k + 1) ≤ 366 := by
    unfold yearLength
    split_ifs <;> omega
  have hyear := toNat_ushortSucc (show k + 1 < 2 ^ 16 by omega)
  have hyearday := toNat_ushortSucc (show lo + 1 < 2 ^ 16 by omega)
  have hmonth := toNat_ucharSucc (show m + 1 < 2 ^ 8 by omega)
  have hmonthday := toNat_ucharSucc (show d + 1 < 2 ^ 8 by omega)
  have hfits : ¬ (((ushortSucc k).toNat : Int) ≠ (k : Int) + 1) := by
    rw [hyear]
    exact not_not.mpr rfl
  have hdate : (ntpcalRdToDate n).1.date = ⟨k + 1, m + 1, d + 1⟩ := by
    unfold ntpcalRdToDate Calendar.date
    simp only [hrd, hsplit, hmonths, if_neg hfits]
    rw [hyear, hmonth, hmonthday]
  have hdays : (ntpcalRdToDate n).1.yearday.toNat = lo + 1 := by
    unfold ntpcalRdToDate
    simp only [hrd, hsplit, hyearday]
  have hretv : (ntpcalRdToDate n).2 = if IsLeap (k + 1) then 1 else 0 := by
    unfold ntpcalRdToDate
    simp [hrd, hsplit, if_neg hfits]
  rw [hdate]
  refine ⟨⟨?_, ?_, ?_, ?_, ?_⟩, rfl, ?_, ?_, hretv⟩
  · exact hpos
  · exact Nat.le_add_left 1 m
  · exact hm
  · exact Nat.le_add_left 1 d
  · exact hd
  · simp only [Date.ordinal, Date.yearday, Nat.add_sub_cancel]
    omega
  · simp only [Date.yearday, Nat.add_sub_cancel]
    omega

/-! ### The conversions -/

/-- The conversions are inverse to each other, they are those of the Gregorian
    calendar, and dates are in the order of their days. -/
theorem gregorian_calendar :
    (∀ y n : Nat, 1 ≤ y → y ≤ 65535 → InYear y n →
      (ntpcalRdToDate n).1.date.Valid ∧ (ntpcalRdToDate n).1.date.year = y ∧
      (ntpcalRdToDate n).1.yearday.toNat = (ntpcalRdToDate n).1.date.yearday ∧
      (ntpcalRdToDate n).1.weekday.toNat = n % 7 ∧
      (ntpcalRdToDate n).2 = (if IsLeap y then 1 else 0) ∧
      ntpcalDateToRd (ntpcalRdToDate n).1 = n) ∧ (∀ jd : Calendar, jd.date.Valid →
      (ntpcalRdToDate (ntpcalDateToRd jd)).1.date = jd.date) ∧
    ∀ a b : Calendar, a.date.Valid → b.date.Valid →
      (ntpcalDateToRd a < ntpcalDateToRd b ↔ a.date.Before b.date) := by
  refine ⟨?_, ?_, ?_⟩
  · intro y n hpos hle h
    obtain ⟨hvalid, hyear, hordinal, hyearday, hretv⟩ := rdToDate_spec hpos hle h
    refine ⟨hvalid, hyear, hyearday, weekday_spec n, hretv, ?_⟩
    rw [dateToRd_eq hvalid, hordinal]
  · intro jd hjd
    have hle : jd.date.year ≤ 65535 := Nat.le_of_lt_succ jd.year.isLt
    obtain ⟨hvalid, -, hordinal, -, -⟩ := rdToDate_spec hjd.year_pos hle hjd.inYear
    rw [dateToRd_eq hjd]
    exact Date.eq_of_ordinal_eq hvalid hjd hordinal
  · intro a b ha hb
    rw [dateToRd_eq ha, dateToRd_eq hb, Nat.cast_lt]
    exact Date.ordinal_lt_iff ha hb

/-- The leap day of the year four. -/
theorem gregorian_calendar_leapday :
    InYear 4 1155 ∧ ntpcalRdToDate 1155 = (⟨4, 60, 2, 29, 0⟩, 1) ∧
      (ntpcalRdToDate (1155 : Nat)).1.date.Valid :=
  ⟨by decide, by decide,
    (gregorian_calendar.1 4 1155 (by decide) (by decide) (by decide)).1⟩

end NtpSuite.Ntpcal
