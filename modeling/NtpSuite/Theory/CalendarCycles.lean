import NtpSuite.Theory.Calendar

/-!
# Years, Months and Weeks out of Scale

The counts of days and weeks for any number of elapsed years and months, negative ones
included.

Months out of range carry into the years. The weeks are linear in the years of a century,
up to a rounding that the tables are made for, and what a century does depends on its
place in the cycle only.

## Theorems

* `offscale_dates`: Months out of range.
* `weeksInYears_near`, `weeksInYears_step`: The weeks in elapsed years.
* `weeks_near_years`: Weeks and days in elapsed years.
* `eraweeks_split`: The weeks are split into years and weeks.
-/

namespace NtpSuite.Ntpcal

open List

/-! ### Months -/

/-- Days in a year are counted from its beginning, and twelve months are a year, for all
    years, months and days. -/
theorem offscale_dates (y m d : Int) :
    ntpcalEdateToYeardays y m d = ntpcalEdateToEradays y m d - ntpcalDaysInYears y ∧
      ntpcalEdateToEradays y (m + 12) d = ntpcalEdateToEradays (y + 1) m d := by
  simp only [eradays_floor]
  constructor
  · unfold ntpcalEdateToYeardays
    split_ifs with hm
    · obtain ⟨k, rfl⟩ := Int.eq_ofNat_of_zero_le hm.1
      have htable := realMonthTable_eradays y (show k < 12 by omega)
      rw [Int.toNat_natCast]
      omega
    · simp only
      omega
  · have hdiv : (m + 12) / 12 = m / 12 + 1 := by omega
    have hmod : (m + 12) % 12 = m % 12 := by omega
    simp only [daysInMonths_floor, hdiv, hmod]
    congr 3
    omega

/-! ### Weeks -/

/-- The weeks in elapsed years, by cycle, century and year of the century. -/
theorem weeksInYears_floor (c : Int) {n y : Nat} (hn : n < 4) (hy : y < 100) :
    isocalWeeksInYears (400 * c + 100 * n + y) =
      20871 * c + 5218 * n - (if n > 1 then 1 else 0) +
        (53431 * y + [449, 157, 889, 597].getD n 0) / 1024 := by
  have hdiv : (400 * c + 100 * (n : Int) + y) / 400 = c := by omega
  have hmod : (400 * c + 100 * (n : Int) + y) % 400 = 100 * n + y := by omega
  have hcents : (100 * (n : Int) + y).tdiv 100 = n := by
    rw [Int.tdiv_eq_ediv_of_nonneg (by omega)]
    omega
  have hrest : (100 * (n : Int) + y).tmod 100 = y := by
    rw [Int.tmod_eq_emod_of_nonneg (by omega)]
    omega
  unfold isocalWeeksInYears
  simp only [tdiv_floor _ (show (0 : Int) < 400 by decide),
    tmod_floor _ (show (0 : Int) < 400 by decide), hdiv, hmod, hcents, hrest, Int.toNat_natCast,
    GREGORIAN_CYCLE_WEEKS, GREGORIAN_CYCLE_DAYS, GREGORIAN_NORMAL_CENTURY_DAYS,
    GREGORIAN_NORMAL_LEAP_CYCLE_DAYS]
  rw [Int.tdiv_eq_ediv_of_nonneg (by interval_cases n <;> simp <;> omega)]
  interval_cases n <;> simp <;> omega

/-- Every year has its cycle, century and year of the century. -/
theorem exists_year (y : Int) : ∃ (c : Int) (n k : Nat), n < 4 ∧ k < 100 ∧
    y = 400 * c + 100 * n + k :=
  ⟨y / 400, (y % 400 / 100).toNat, (y % 100).toNat, by omega, by omega, by omega⟩

/-- The next year is in the same century, or it begins the next century or the next cycle. -/
theorem weeksInYears_succ (c : Int) {n k : Nat} (hn : n < 4) (hk : k < 100) :
    isocalWeeksInYears (400 * c + 100 * n + k + 1) =
      if k = 99 then 20871 * c + 5218 * (n + 1) - (if n > 0 then 1 else 0)
      else 20871 * c + 5218 * n - (if n > 1 then 1 else 0) +
        (53431 * (k + 1) + [449, 157, 889, 597].getD n 0) / 1024 := by
  by_cases hlast : k = 99
  · subst hlast
    by_cases hcycle : n = 3
    · subst hcycle
      have hnext := weeksInYears_floor (c + 1) (show 0 < 4 by decide) (show 0 < 100 by decide)
      rw [show 400 * c + 100 * ((3 : Nat) : Int) + (99 : Nat) + 1 =
        400 * (c + 1) + 100 * ((0 : Nat) : Int) + (0 : Nat) by omega, hnext]
      simp
      omega
    · have hnext := weeksInYears_floor c (show n + 1 < 4 by omega) (show 0 < 100 by decide)
      rw [show 400 * c + 100 * (n : Int) + (99 : Nat) + 1 =
        400 * c + 100 * ((n + 1 : Nat) : Int) + (0 : Nat) by omega, hnext]
      interval_cases n <;> simp at hcycle ⊢
  · have hnext := weeksInYears_floor c hn (show k + 1 < 100 by omega)
    rw [if_neg hlast, show 400 * c + 100 * (n : Int) + k + 1 =
      400 * c + 100 * (n : Int) + ((k + 1 : Nat) : Int) by omega, hnext]
    rfl

theorem weeksInYears_near (y : Int) :
    -3 ≤ 7 * isocalWeeksInYears y - ntpcalDaysInYears y ∧
      7 * isocalWeeksInYears y - ntpcalDaysInYears y ≤ 3 := by
  obtain ⟨c, n, k, hn, hk, rfl⟩ := exists_year y
  rw [weeksInYears_floor c hn hk, daysInYears_floor]
  interval_cases n
  all_goals
    simp only [getD_cons_zero, getD_cons_succ]
    omega

theorem weeksInYears_step (y : Int) :
    isocalWeeksInYears (y + 1) - isocalWeeksInYears y = 52 ∨
      isocalWeeksInYears (y + 1) - isocalWeeksInYears y = 53 := by
  obtain ⟨c, n, k, hn, hk, rfl⟩ := exists_year y
  rw [weeksInYears_succ c hn hk, weeksInYears_floor c hn hk]
  interval_cases n
  all_goals
    simp only [getD_cons_zero, getD_cons_succ]
    split_ifs <;> omega

/-- Weeks and days in elapsed years, and the weeks of a year. -/
theorem weeks_near_years (y : Int) :
    (-3 ≤ 7 * isocalWeeksInYears y - ntpcalDaysInYears y ∧
      7 * isocalWeeksInYears y - ntpcalDaysInYears y ≤ 3) ∧
    (isocalWeeksInYears (y + 1) - isocalWeeksInYears y = 52 ∨
      isocalWeeksInYears (y + 1) - isocalWeeksInYears y = 53) :=
  ⟨weeksInYears_near y, weeksInYears_step y⟩

/-- The tables for years and weeks agree: the first week of a year is the first one that is
    taken for a week of it, and the first week of the next year is none. -/
theorem eraweeks_table : ∀ n < 4, ∀ k < 100,
    let first := fun k => 157 * ((53431 * k + [449, 157, 889, 597].getD n 0) / 1024) +
      [85, 131, 17, 62].getD n 0
    8192 * k ≤ first k ∧ first k < 8192 * k + 157 ∧ 8192 * (k + 1) ≤ first (k + 1) := by
  decide

theorem eraweeks_century {n w : Nat} (hn : n < 4) (hw : w < if n = 1 then 5217 else 5218) :
    ∃ k j : Nat, k < 100 ∧
      (157 * w + [85, 131, 17, 62].getD n 0) / 8192 = k ∧
      (157 * w + [85, 131, 17, 62].getD n 0) % 8192 / 157 = j ∧
      (53431 * k + [449, 157, 889, 597].getD n 0) / 1024 + j = w ∧
      w < (53431 * (k + 1) + [449, 157, 889, 597].getD n 0) / 1024 := by
  have hk : (157 * w + [85, 131, 17, 62].getD n 0) / 8192 < 100 := by
    interval_cases n <;> simp at hw ⊢ <;> omega
  refine ⟨_, _, hk, rfl, rfl, ?_⟩
  obtain ⟨hlow, hhigh, hnext⟩ := eraweeks_table n hn _ hk
  interval_cases n <;> simp only [getD_cons_zero, getD_cons_succ] at * <;> omega

theorem splitEraweeks_spec (w : Int) : ∃ y k : Int, isocalSplitEraweeks w = ⟨y, k⟩ ∧
    isocalWeeksInYears y + k = w ∧ 0 ≤ k ∧
      k < isocalWeeksInYears (y + 1) - isocalWeeksInYears y := by
  have hcycle : GREGORIAN_CYCLE_WEEKS = 20871 := by decide
  -- The century and the week in it.
  obtain ⟨n, v, hn, hv, hw⟩ : ∃ n v : Nat, n < 4 ∧ (v < if n = 1 then 5217 else 5218) ∧
      w % 20871 + (if w % 20871 ≥ 10435 then 1 else 0) = 5218 * n + v := by
    refine ⟨((w % 20871 + if w % 20871 ≥ 10435 then 1 else 0) / 5218).toNat,
      ((w % 20871 + if w % 20871 ≥ 10435 then 1 else 0) % 5218).toNat, ?_, ?_, ?_⟩
    all_goals split_ifs <;> omega
  obtain ⟨k, j, hk, hyear, hweek, hsum, hnext⟩ := eraweeks_century hn hv
  have hsplit : isocalSplitEraweeks w = ⟨400 * (w / 20871) + 100 * n + k, j⟩ := by
    have hcents : (5218 * (n : Int) + v).tdiv 5218 = n := by
      rw [Int.tdiv_eq_ediv_of_nonneg (by omega)]
      split_ifs at hv <;> omega
    have hrest : (5218 * (n : Int) + v).tmod 5218 = v := by
      rw [Int.tmod_eq_emod_of_nonneg (by omega)]
      split_ifs at hv <;> omega
    unfold isocalSplitEraweeks
    simp only [hcycle, tdiv_floor w (show (0 : Int) < 20871 by decide),
      tmod_floor w (show (0 : Int) < 20871 by decide), hw, hcents, hrest, Int.toNat_natCast]
    interval_cases n
    all_goals
      simp only [getD_cons_zero, getD_cons_succ] at hyear hweek ⊢
      rw [Int.tdiv_eq_ediv_of_nonneg (by omega), Int.tmod_eq_emod_of_nonneg (by omega),
        Int.tdiv_eq_ediv_of_nonneg (by omega), ← hyear, ← hweek]
      push_cast
      ring
  refine ⟨_, _, hsplit, ?_⟩
  rw [weeksInYears_succ _ hn hk, weeksInYears_floor _ hn hk]
  interval_cases n
  all_goals
    simp only [getD_cons_zero, getD_cons_succ] at hsum hnext ⊢
    split_ifs at hv hw ⊢ <;> omega

end NtpSuite.Ntpcal
