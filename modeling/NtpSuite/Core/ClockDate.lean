import NtpSuite.Core.Calendar

/-!
# Dates of Reference Clocks

The conversion of the date and time that a clock has sent, with a day count and a
table of months of its own.

## Main definitions

* `ClockTime`: What a clock has sent.
* `parseToUnixtime`: The seconds since 1970.
-/

namespace NtpSuite.ClockDate

def YEAR_PIVOT : Int := 98
def YEAR_BREAK : Int := 500

/-- `clocktime_t`. -/
structure ClockTime where
  day : Int
  month : Int
  year : Int
  hour : Int
  minute : Int
  second : Int
  utcoffset : Int
  utctime : Int := 0
deriving DecidableEq, Repr

/-- `CVT_FAIL` with `CVT_BADDATE` or `CVT_BADTIME`. -/
inductive CvtFail where
  | baddate | badtime
deriving DecidableEq, Repr

/-- Years of two digits and of a `struct tm`. -/
def fullYear (year : Int) : Int :=
  let year := if year < YEAR_PIVOT then year + 100 else year
  if year < YEAR_BREAK then year + 1900 else year

/-- `julian0`. -/
def julian0 (year : Int) : Int :=
  year * 365 +
    if year > 0 then (year + 3).tdiv 4 - (year - 1).tdiv 100 + (year - 1).tdiv 400 else 0

/-- `isleap_4`. -/
def isleap4 (y : Int) : Bool := y.tmod 4 = 0 ∧ ¬(y.tmod 100 = 0 ∧ ¬y.tmod 400 = 0)

/-- `days_per_year`. -/
def daysPerYear (x : Int) : Int :=
  if x.tmod 4 ≠ 0 then 365
  else if x.tmod 400 ≠ 0 then if x.tmod 100 ≠ 0 then 366 else 365
  else 366

/-- `days_of_month`. -/
def daysOfMonth : List Int := [0, 31, 28, 31, 30, 31, 30, 31, 31, 30, 31, 30, 31]

/-- `TIMES24` and `TIMES60`. -/
def times24 (val : Int) : Int := val * 2 ^ 4 + val * 2 ^ 3
def times60 (val : Int) : Int := (val * 2 ^ 4 - val) * 2 ^ 2

/-- `parse_to_unixtime`. -/
def parseToUnixtime (ct : ClockTime) : Except CvtFail Int :=
  let year := fullYear ct.year
  if ct.utctime ≠ 0 then .ok ct.utctime
  else if year < 1970 then .error .baddate
  else if ct.month ≤ 0 ∨ ct.month > 12 then .error .baddate
  -- The table has the days of a regular year, so February is tested apart.
  else if ct.day < 1 ∨ (if ct.month = 2 ∧ daysPerYear year = 366 then ct.day > 29
      else ct.day > daysOfMonth.getD ct.month.toNat 0) then .error .baddate
  else if ct.hour < 0 ∨ ct.hour ≥ 24 then .error .badtime
  else if ct.minute < 0 ∨ ct.minute > 59 then .error .badtime
  else if ct.second < 0 ∨ ct.second > 60 then .error .badtime
  else
    let t := julian0 year - julian0 1970 + (if ct.month ≥ 3 ∧ isleap4 year then 1 else 0) +
      (daysOfMonth.take ct.month.toNat).sum + (ct.day - 1)
    .ok (times60 (times60 (times24 t + ct.hour) + ct.minute) + ct.second + ct.utcoffset)

end NtpSuite.ClockDate
