import Mathlib

/-!
# Calendar Dates

The conversion between the number of a day and a date, in both directions.

The number of a day is split into cycles of 400, 100, 4 and 1 years and a day in
the year, and that day into months and a day with a table. In the other direction
the months are counted from March, so that the leap day is the last of a year.

An `int32` is an integer here. The operations do not overflow for days of the years
that a `struct calendar` has room for. Division truncates.

## Main definitions

* `Calendar`: The date part of a `struct calendar`.
* `ntpcalRdToDate`: The date of a day.
* `ntpcalDateToRd`: The day of a date.
* `ntpcalNtpToNtp`: The time of a timestamp, near a pivot.
* `ntpcalNtpToDate`, `ntpcalDateToNtp`: The date of a timestamp, and back.
-/

namespace NtpSuite.Ntpcal

def DAYSPERYEAR : Int := 365
def GREGORIAN_NORMAL_LEAP_CYCLE_DAYS : Int := 3 * 365 + 366
def GREGORIAN_NORMAL_CENTURY_DAYS : Int := 25 * GREGORIAN_NORMAL_LEAP_CYCLE_DAYS - 1
def GREGORIAN_CYCLE_DAYS : Int := 4 * GREGORIAN_NORMAL_CENTURY_DAYS + 1

/-- `shift_month_table`: the days before a month of a year that begins in March. -/
def shiftMonthTable : List Int := [0, 31, 61, 92, 122, 153, 184, 214, 245, 275, 306, 337, 366]

/-- `real_month_table`: the days before a month, in a regular year and in a leap year. -/
def realMonthTable (isleapyear : Bool) : List Int :=
  if isleapyear then [0, 31, 60, 91, 121, 152, 182, 213, 244, 274, 305, 335, 366]
  else [0, 31, 59, 90, 120, 151, 181, 212, 243, 273, 304, 334, 365]

/-- The date part of a `struct calendar`. -/
structure Calendar where
  year : BitVec 16 := 0
  yearday : BitVec 16 := 0
  month : BitVec 8 := 0
  monthday : BitVec 8 := 0
  weekday : BitVec 8 := 0
deriving DecidableEq, Repr

/-- `ntpcal_split`. -/
structure Split where
  hi : Int
  lo : Int
deriving DecidableEq, Repr

/-! ### From days to dates -/

/-- `ntpcal_split_eradays`: elapsed years and days of the year, and if it is a leap year. -/
def ntpcalSplitEradays (days : Int) : Split × Bool :=
  let n400 := days.tdiv GREGORIAN_CYCLE_DAYS
  let yday := days.tmod GREGORIAN_CYCLE_DAYS
  let n400' := if yday < 0 then n400 - 1 else n400
  let yday := if yday < 0 then yday + GREGORIAN_CYCLE_DAYS else yday
  let n100 := yday.tdiv GREGORIAN_NORMAL_CENTURY_DAYS
  let yday := yday.tmod GREGORIAN_NORMAL_CENTURY_DAYS
  let n004 := yday.tdiv GREGORIAN_NORMAL_LEAP_CYCLE_DAYS
  let yday := yday.tmod GREGORIAN_NORMAL_LEAP_CYCLE_DAYS
  let n001 := yday.tdiv DAYSPERYEAR
  let yday := yday.tmod DAYSPERYEAR
  -- The last day of a leap year is in none of the four regular years.
  let overflow := (n001.toNat ||| n100.toNat) > 3
  let leap := if overflow then true else decide (n001 = 3 ∧ (n004 ≠ 24 ∨ n100 = 3))
  let n001' := if overflow then n001 - 1 else n001
  let yday := if overflow then yday + DAYSPERYEAR else yday
  (⟨((4 * n400' + n100) * 25 + n004) * 4 + n001', yday⟩, leap)

/-- `ntpcal_split_yeardays`: elapsed months and days of the month. -/
def ntpcalSplitYeardays (eyd : Int) (isleapyear : Bool) : Split :=
  let lt := realMonthTable isleapyear
  if 0 ≤ eyd ∧ eyd < lt.getD 12 0 then
    let hi := eyd.toNat / 2 ^ 5
    let hi := if lt.getD (hi + 1) 0 ≤ eyd then hi + 1 else hi
    ⟨hi, eyd - lt.getD hi 0⟩
  else ⟨-1, -1⟩

/-- A number as `u_short`, plus one. -/
def ushortSucc (n : Int) : BitVec 16 := BitVec.ofInt 16 n + 1

/-- A number as `u_char`, plus one. -/
def ucharSucc (n : Int) : BitVec 8 := BitVec.ofInt 8 n + 1

/-- `ntpcal_rd_to_date`: the date, and if it is in a leap year. -/
def ntpcalRdToDate (rd : Int) : Calendar × Int :=
  let weekday := BitVec.ofInt 8 (rd.tmod 7)
  let weekday := if weekday ≥ 7 then weekday + 7 else weekday
  let (split, leaps) := ntpcalSplitEradays (rd - 1)
  let year := ushortSucc split.hi
  let overflow := (year.toNat : Int) ≠ split.hi + 1
  let retv := if overflow then -1 else if leaps then 1 else 0
  let months := ntpcalSplitYeardays split.lo leaps
  ({ year := if overflow then 0 else year
     yearday := ushortSucc split.lo
     month := ucharSucc months.hi
     monthday := ucharSucc months.lo
     weekday := weekday }, retv)

/-! ### From dates to days -/

/-- `ntpcal_days_in_years`. -/
def ntpcalDaysInYears (years : Int) : Int :=
  let cycle := years.tdiv 400
  let rest := years.tmod 400
  let cycle' := if rest < 0 then cycle - 1 else cycle
  let rest := if rest < 0 then rest + 400 else rest
  cycle' * GREGORIAN_CYCLE_DAYS + rest * DAYSPERYEAR + rest.tdiv 4 - rest.tdiv 100

/-- `ntpcal_days_in_months`: the years that are too many, and the days. -/
def ntpcalDaysInMonths (m : Int) : Split :=
  let (hi, lo) :=
    if m < 0 ∨ m ≥ 12 then
      let hi := m.tdiv 12
      let lo := m.tmod 12
      if lo < 0 then (hi - 1, lo + 12) else (hi, lo)
    else (0, m)
  let (hi, lo) := if lo < 2 then (hi, lo + 10) else (hi + 1, lo - 2)
  ⟨hi, shiftMonthTable.getD lo.toNat 0 - 306⟩

/-- `ntpcal_edate_to_eradays`. -/
def ntpcalEdateToEradays (years mons mdays : Int) : Int :=
  let res :=
    if mons ≠ 0 then
      let tmp := ntpcalDaysInMonths mons
      ntpcalDaysInYears (years + tmp.hi) + tmp.lo
    else ntpcalDaysInYears years
  res + mdays

/-- `is_leapyear`. -/
def isLeapyear (y : Int) : Bool :=
  decide (y.tmod 4 = 0) && !(decide (y.tmod 100 = 0) && decide (y.tmod 400 ≠ 0))

/-- `ntpcal_edate_to_yeardays`. -/
def ntpcalEdateToYeardays (years mons mdays : Int) : Int :=
  if 0 ≤ mons ∧ mons < 12 then
    mdays + (realMonthTable (isLeapyear (years + 1))).getD mons.toNat 0
  else
    let tmp := ntpcalDaysInMonths mons
    mdays + (tmp.lo + ntpcalDaysInYears (years + tmp.hi) - ntpcalDaysInYears years)

/-- `ntpcal_date_to_rd`. -/
def ntpcalDateToRd (jd : Calendar) : Int :=
  ntpcalEdateToEradays (jd.year.toNat - 1) (jd.month.toNat - 1) (jd.monthday.toNat - 1) + 1

/-! ### Weeks -/

def GREGORIAN_CYCLE_WEEKS : Int := GREGORIAN_CYCLE_DAYS / 7

/-- `isocal_weeks_in_years`. -/
def isocalWeeksInYears (years : Int) : Int :=
  let cycle := years.tdiv 400
  let rest := years.tmod 400
  let cycle' := if rest < 0 then cycle - 1 else cycle
  let rest := if rest < 0 then rest + 400 else rest
  let cents := rest.tdiv 100
  let weeks := (rest.tmod 100 * 53431 + [449, 157, 889, 597].getD cents.toNat 0).tdiv 1024
  cycle' * GREGORIAN_CYCLE_WEEKS + cents * 5218 - (if cents > 1 then 1 else 0) + weeks

/-- `isocal_split_eraweeks`: elapsed years and weeks of the year. -/
def isocalSplitEraweeks (weeks : Int) : Split :=
  let hi := weeks.tdiv GREGORIAN_CYCLE_WEEKS
  let lo := weeks.tmod GREGORIAN_CYCLE_WEEKS
  let hi' := if lo < 0 then hi - 1 else hi
  let lo := if lo < 0 then lo + GREGORIAN_CYCLE_WEEKS else lo
  -- The second century has a week less than the others.
  let lo := lo + (if lo ≥ 10435 then 1 else 0)
  let cents := lo.tdiv 5218
  let lo := lo.tmod 5218 * 157 + [85, 131, 17, 62].getD cents.toNat 0
  ⟨hi' * 400 + (cents * 100 + lo.tdiv 8192), (lo.tmod 8192).tdiv 157⟩

/-! ### Seconds -/

def SECSPERDAY : Int := 86400
def DAY_NTP_STARTS : Int := 693596
def DAY_UNIX_STARTS : Int := 719163
def JAN_1970 : BitVec 32 := BitVec.ofInt 32 ((DAY_UNIX_STARTS - DAY_NTP_STARTS) * SECSPERDAY)

/-- `ntpcal_ntp_to_ntp`, with 64-bit scalars. -/
def ntpcalNtpToNtp (ntp : BitVec 32) (pivot : BitVec 64) : BitVec 64 :=
  let res := pivot - 0x80000000
  let res := res + JAN_1970.setWidth 64
  let ntp := ntp - res.setWidth 32
  res + ntp.setWidth 64

/-- `ntpcal_ntp_to_time`. -/
def ntpcalNtpToTime (ntp : BitVec 32) (pivot : BitVec 64) : BitVec 64 :=
  let res := pivot - 0x80000000
  let ntp := ntp - JAN_1970
  let ntp := ntp - res.setWidth 32
  res + ntp.setWidth 64

/-- `ntpcal_daysplit`: elapsed days, as an `int32`, and seconds since midnight. -/
def ntpcalDaysplit (ts : BitVec 64) : Split :=
  let hi := (ts.toInt.tdiv SECSPERDAY).bmod (2 ^ 32)
  let lo := ts.toInt.tmod SECSPERDAY
  ⟨if lo < 0 then hi - 1 else hi, if lo < 0 then lo + SECSPERDAY else lo⟩

/-- The time part of a `struct calendar` and of a `struct isodate`. -/
structure Daytime where
  hour : BitVec 8
  minute : BitVec 8
  second : BitVec 8
deriving DecidableEq, Repr

/-- `priv_timesplit` and `ntpcal_daysec_to_date`: excessive days, and the time. -/
def privTimesplit (ts : Int) : Int × Daytime :=
  let (days, ts) :=
    if ts < 0 ∨ ts ≥ SECSPERDAY then
      let days := ts.tdiv SECSPERDAY
      let ts := ts.tmod SECSPERDAY
      if ts < 0 then (days - 1, ts + SECSPERDAY) else (days, ts)
    else (0, ts)
  let mins := ts.tdiv 60
  (days, ⟨BitVec.ofInt 8 (mins.tdiv 60), BitVec.ofInt 8 (mins.tmod 60),
    BitVec.ofInt 8 (ts.tmod 60)⟩)

/-- `ntpcal_ntp_to_date`: the date, what is returned for it, and the time. -/
def ntpcalNtpToDate (ntp : BitVec 32) (piv : BitVec 64) : (Calendar × Int) × Daytime :=
  let ds := ntpcalDaysplit (ntpcalNtpToNtp ntp piv)
  let ts := privTimesplit ds.lo
  (ntpcalRdToDate (ds.hi + ts.1 + DAY_NTP_STARTS), ts.2)

/-- `ntpcal_dayjoin`. -/
def ntpcalDayjoin (days secs : Int) : BitVec 64 := BitVec.ofInt 64 (days * SECSPERDAY + secs)

/-- `ntpcal_etime_to_seconds`. -/
def ntpcalEtimeToSeconds (hours minutes seconds : Int) : Int :=
  (hours * 60 + minutes) * 60 + seconds

/-- `ntpcal_date_to_daysec`. -/
def ntpcalDateToDaysec (jd : Daytime) : Int :=
  ntpcalEtimeToSeconds jd.hour.toNat jd.minute.toNat jd.second.toNat

/-- `ntpcal_date_to_ntp`. -/
def ntpcalDateToNtp (jd : Calendar) (time : Daytime) : BitVec 32 :=
  (ntpcalDayjoin (ntpcalDateToRd jd - DAY_NTP_STARTS) (ntpcalDateToDaysec time)).setWidth 32

/-- `ntpcal_date_to_time`, with a `time_t` of 64 bits. -/
def ntpcalDateToTime (jd : Calendar) (time : Daytime) : BitVec 64 :=
  ntpcalDayjoin (ntpcalDateToRd jd - DAY_UNIX_STARTS) (ntpcalDateToDaysec time)

/-- `struct isodate`. -/
structure Isodate where
  year : BitVec 16
  week : BitVec 8
  weekday : BitVec 8
  time : Daytime
deriving DecidableEq, Repr

/-- `isocal_ntp_to_date`: the date, and if its year is in range. -/
def isocalNtpToDate (ntp : BitVec 32) (piv : BitVec 64) : Isodate × Bool :=
  let ds := ntpcalDaysplit (ntpcalNtpToNtp ntp piv)
  let ts := privTimesplit ds.lo
  let eradays := ds.hi + ts.1 + DAY_NTP_STARTS - 1
  let hi := eradays.tdiv 7
  let lo := eradays.tmod 7
  let weeks := if lo < 0 then hi - 1 else hi
  let lo := if lo < 0 then lo + 7 else lo
  let ds := isocalSplitEraweeks weeks
  (⟨ushortSucc ds.hi, ucharSucc ds.lo, ucharSucc lo, ts.2⟩, decide (0 ≤ ds.hi ∧ ds.hi < 0xFFFF))

/-- `isocal_date_to_ntp`. -/
def isocalDateToNtp (id : Isodate) : BitVec 32 :=
  let weeks := isocalWeeksInYears (id.year.toNat - 1) + id.week.toNat - 1
  let days := weeks * 7 + id.weekday.toNat
  (ntpcalDayjoin (days - DAY_NTP_STARTS) (ntpcalDateToDaysec id.time)).setWidth 32

end NtpSuite.Ntpcal
