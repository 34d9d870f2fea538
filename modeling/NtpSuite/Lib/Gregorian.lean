import Mathlib

/-!
# The Gregorian Calendar

Days are counted from the first of January of the year one, which is day one. The
number of a date is the number of days in the years and months before it, and its
day of the month.

A year is found again in the number of a day because a day lies between the
beginning of its year and that of the next, and a month because the same is true
of the months of a year. So dates are in the order of their numbers.

## Main definitions

* `IsLeap`, `yearLength`, `monthLength`: The rules.
* `daysInYears`, `daysInMonths`: What lies before a year and before a month.
* `Date`: A date.
* `Date.Valid`: There is such a date.
* `Date.ordinal`: The number of its day.
* `InYear`: A day is in a year.

## Theorems

* `daysInYears_eq`: The days in years, with the rule for leap years summed up.
* `daysInMonths_twelve`: The months make the year.
* `ordinal_lt_iff`: Dates are in the order of their numbers.
-/

namespace Gregorian

/-- Every fourth year, but only every fourth of the hundredth years. -/
def IsLeap (y : Nat) : Prop := y % 4 = 0 ∧ (y % 100 ≠ 0 ∨ y % 400 = 0)

instance (y : Nat) : Decidable (IsLeap y) := inferInstanceAs (Decidable (_ ∧ _))

def yearLength (y : Nat) : Nat := if IsLeap y then 366 else 365

def monthLength (y m : Nat) : Nat :=
  match m with
  | 2 => if IsLeap y then 29 else 28
  | 4 | 6 | 9 | 11 => 30
  | _ => 31

/-- The days in the first years. -/
def daysInYears (n : Nat) : Nat := ∑ i ∈ Finset.range n, yearLength (i + 1)

/-- The days in the first months of a year. -/
def daysInMonths (y n : Nat) : Nat := ∑ i ∈ Finset.range n, monthLength y (i + 1)

/-- A year, a month and a day, each counted from one. -/
structure Date where
  year : Nat
  month : Nat
  day : Nat
deriving DecidableEq, Repr

namespace Date

/-- The month has that day. -/
structure Valid (d : Date) : Prop where
  year_pos : 1 ≤ d.year
  month_pos : 1 ≤ d.month
  month_le : d.month ≤ 12
  day_pos : 1 ≤ d.day
  day_le : d.day ≤ monthLength d.year d.month

/-- The day in its year. -/
def yearday (d : Date) : Nat := daysInMonths d.year (d.month - 1) + d.day

/-- The number of the day. -/
def ordinal (d : Date) : Nat := daysInYears (d.year - 1) + d.yearday

/-- The order by year, month and day. -/
def Before (d e : Date) : Prop :=
  d.year < e.year ∨ d.year = e.year ∧ (d.month < e.month ∨ d.month = e.month ∧ d.day < e.day)

instance (d e : Date) : Decidable (d.Before e) := inferInstanceAs (Decidable (_ ∨ _))

end Date

/-- The day is in the year. -/
def InYear (y n : Nat) : Prop := daysInYears (y - 1) < n ∧ n ≤ daysInYears y

instance (y n : Nat) : Decidable (InYear y n) := inferInstanceAs (Decidable (_ ∧ _))

/-! ### Years -/

theorem daysInYears_succ (n : Nat) : daysInYears (n + 1) = daysInYears n + yearLength (n + 1) :=
  Finset.sum_range_succ _ _

/-- Every fourth year has a day more, every hundredth has not, and every four hundredth has. -/
theorem daysInYears_eq (n : Nat) : daysInYears n + n / 100 = 365 * n + n / 4 + n / 400 := by
  induction n with
  | zero => rfl
  | succ n ih =>
    rw [daysInYears_succ, yearLength]
    by_cases hleap : IsLeap (n + 1)
    · rw [if_pos hleap]
      unfold IsLeap at hleap
      omega
    · rw [if_neg hleap]
      unfold IsLeap at hleap
      omega

theorem daysInYears_mono : Monotone daysInYears := by
  apply monotone_nat_of_le_succ
  intro n
  rw [daysInYears_succ]
  exact Nat.le_add_right _ _

/-- A day is in one year. -/
theorem InYear.unique {y y' n : Nat} (h : InYear y n) (h' : InYear y' n) : y = y' := by
  by_contra hne
  rcases Nat.lt_or_gt_of_ne hne with hlt | hlt
  · have hmono := daysInYears_mono (Nat.le_sub_one_of_lt hlt)
    exact absurd (h.2.trans hmono) (not_le.mpr h'.1)
  · have hmono := daysInYears_mono (Nat.le_sub_one_of_lt hlt)
    exact absurd (h'.2.trans hmono) (not_le.mpr h.1)

/-! ### Months -/

theorem daysInMonths_succ (y n : Nat) :
    daysInMonths y (n + 1) = daysInMonths y n + monthLength y (n + 1) :=
  Finset.sum_range_succ _ _

theorem daysInMonths_mono (y : Nat) : Monotone (daysInMonths y) := by
  apply monotone_nat_of_le_succ
  intro n
  rw [daysInMonths_succ]
  exact Nat.le_add_right _ _

/-- The months make the year. -/
theorem daysInMonths_twelve (y : Nat) : daysInMonths y 12 = yearLength y := by
  unfold daysInMonths monthLength yearLength
  split_ifs <;> rfl

/-! ### Dates -/

namespace Date

variable {d e : Date}

/-- The day is in its month. -/
theorem Valid.yearday_le (h : d.Valid) : d.yearday ≤ daysInMonths d.year d.month := by
  obtain ⟨m, hm⟩ := Nat.exists_eq_add_of_le' h.month_pos
  have hday := h.day_le
  rw [yearday, hm, Nat.add_sub_cancel, daysInMonths_succ, ← hm]
  omega

/-- The day is in its year. -/
theorem Valid.inYear (h : d.Valid) : InYear d.year d.ordinal := by
  have hday := h.day_pos
  have hmonth := h.yearday_le.trans (daysInMonths_mono d.year h.month_le)
  rw [daysInMonths_twelve] at hmonth
  obtain ⟨y, hy⟩ := Nat.exists_eq_add_of_le' h.year_pos
  have hyear := daysInYears_succ y
  rw [← hy] at hyear
  constructor
  · unfold ordinal yearday
    omega
  · unfold ordinal
    rw [hy, Nat.add_sub_cancel, ← hy]
    omega

/-- In one year the days are in the order of the months. -/
theorem yearday_lt_of_month_lt (hd : d.Valid) (he : e.Valid) (hyear : d.year = e.year)
    (hmonth : d.month < e.month) : d.yearday < e.yearday := by
  have hfirst := hd.yearday_le
  have hmono := daysInMonths_mono d.year (Nat.le_sub_one_of_lt hmonth)
  have hday := he.day_pos
  rw [hyear] at hfirst hmono
  rw [yearday.eq_def e]
  omega

/-- An earlier date has a lower number. -/
theorem ordinal_lt_of_before (hd : d.Valid) (he : e.Valid) (h : d.Before e) :
    d.ordinal < e.ordinal := by
  rcases h with hyear | ⟨hyear, hmonth | ⟨hmonth, hday⟩⟩
  · have hlast := hd.inYear.2
    have hfirst := he.inYear.1
    have hmono := daysInYears_mono (Nat.le_sub_one_of_lt hyear)
    omega
  · have hlt := yearday_lt_of_month_lt hd he hyear hmonth
    unfold ordinal
    rw [hyear]
    omega
  · unfold ordinal yearday
    rw [hyear, hmonth]
    omega

/-- Of two dates one is before the other, or they are the same. -/
theorem before_trichotomy (d e : Date) : d.Before e ∨ d = e ∨ e.Before d := by
  obtain ⟨y, m, a⟩ := d
  obtain ⟨y', m', a'⟩ := e
  simp only [Before, Date.mk.injEq]
  omega

/-- Dates are in the order of their numbers. -/
theorem ordinal_lt_iff (hd : d.Valid) (he : e.Valid) : d.ordinal < e.ordinal ↔ d.Before e := by
  constructor
  · intro hlt
    rcases before_trichotomy d e with h | rfl | h
    · exact h
    · exact absurd hlt (lt_irrefl _)
    · exact absurd hlt (ordinal_lt_of_before he hd h).not_gt
  · exact ordinal_lt_of_before hd he

/-- A date is known by its number. -/
theorem eq_of_ordinal_eq (hd : d.Valid) (he : e.Valid) (h : d.ordinal = e.ordinal) : d = e := by
  rcases before_trichotomy d e with hlt | heq | hlt
  · exact absurd h (ordinal_lt_of_before hd he hlt).ne
  · exact heq
  · exact absurd h (ordinal_lt_of_before he hd hlt).ne'

end Date

end Gregorian
