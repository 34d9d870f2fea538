import NtpSuite.Theory.CalendarCycles

/-!
# Timestamps near a Pivot

A timestamp is the low half of a time. `ntpcal_ntp_to_ntp` finds the time that has this
low half and is in the 2^32 seconds around the pivot: it adds to the first second of
this window what is missing, modulo 2^32.

The dates are made from days and the seconds of a day, so they stand for the same time,
and its low half is the timestamp. The window must not reach beyond 64 bits, which it
does for a pivot close to the upper end.

## Theorems

* `setWidth_unfold`, `toInt_unfold`: The low half, and the place in the window.
* `era_unfolding`: Timestamps around a pivot, and the dates for them.
-/

namespace NtpSuite.Ntpcal

open Gregorian BitVec

/-! ### The window -/

section Window

variable (first : BitVec 64) (ntp : BitVec 32)

theorem setWidth_unfold : (first + (ntp - first.setWidth 32).setWidth 64).setWidth 32 = ntp := by
  rw [setWidth_add _ _ (by decide), setWidth_setWidth_of_le _ (by decide),
    setWidth_eq, add_comm, sub_add_cancel]

variable {first} in
theorem toInt_unfold (hfirst : first.toInt + 2 ^ 32 ≤ 2 ^ 63) :
    (first + (ntp - first.setWidth 32).setWidth 64).toInt =
      first.toInt + (ntp - first.setWidth 32).toNat := by
  have hlow := le_toInt first
  have hlt := (ntp - first.setWidth 32).isLt
  have hext : ((ntp - first.setWidth 32).setWidth 64).toInt = (ntp - first.setWidth 32).toNat := by
    rw [toInt_eq_toNat_of_lt (by rw [toNat_setWidth]; omega), toNat_setWidth]
    omega
  rw [toInt_add, hext]
  exact Int.bmod_eq_of_le (by omega) (by omega)

end Window

/-- Two times of a window with the same low half are the same. -/
theorem toInt_emod (v : BitVec 64) : v.toInt % 2 ^ 32 = (v.setWidth 32).toNat := by
  have hmod := toInt_eq_toNat_bmod v
  rw [hmod, toNat_setWidth, Int.bmod_def]
  split_ifs <;> omega

/-! ### Days and seconds -/

theorem timesplit_daysec {lo : Int} (hlow : 0 ≤ lo) (hlo : lo < 86400) :
    (privTimesplit lo).1 = 0 ∧ ntpcalDateToDaysec (privTimesplit lo).2 = lo := by
  obtain ⟨n, rfl⟩ := Int.eq_ofNat_of_zero_le hlow
  have hin : ¬ ((n : Int) < 0 ∨ (n : Int) ≥ SECSPERDAY) := by
    unfold SECSPERDAY
    omega
  have hdiv : ∀ k : Nat, (k : Int).tdiv 60 = ((k / 60 : Nat) : Int) := fun k =>
    (Int.ofNat_tdiv k 60).symm
  have hmod : ∀ k : Nat, (k : Int).tmod 60 = ((k % 60 : Nat) : Int) := fun k =>
    (Int.ofNat_tmod k 60).symm
  unfold privTimesplit ntpcalDateToDaysec ntpcalEtimeToSeconds
  simp only [if_neg hin, hdiv, hmod, ofInt_natCast, toNat_ofNat, true_and]
  omega

/-- The split of a time into days and seconds, for a number of days that an `int32` has room for. -/
theorem daysplit_floor {v : BitVec 64} (hlow : -2 ^ 31 ≤ v.toInt / 86400)
    (hhigh : v.toInt / 86400 + 1 < 2 ^ 31) :
    ntpcalDaysplit v = ⟨v.toInt / 86400, v.toInt % 86400⟩ := by
  have hdiv := tdiv_floor v.toInt (show (0 : Int) < 86400 by decide)
  have hfit : (v.toInt.tdiv 86400).bmod (2 ^ 32) = v.toInt.tdiv 86400 := by
    split_ifs at hdiv <;> exact Int.bmod_eq_of_le (by omega) (by omega)
  unfold ntpcalDaysplit SECSPERDAY
  simp only [hfit, hdiv, tmod_floor v.toInt (show (0 : Int) < 86400 by decide)]

/-- The day that a timestamp is in. -/
def unfoldedDay (ntp : BitVec 32) (pivot : BitVec 64) : Int :=
  (ntpcalNtpToNtp ntp pivot).toInt / SECSPERDAY + DAY_NTP_STARTS

section Dates

variable {ntp : BitVec 32} {pivot : BitVec 64}

/-- The day and the time of a timestamp, put together, are the timestamp. -/
theorem split_unfold (hlow : -2 ^ 30 ≤ unfoldedDay ntp pivot)
    (hhigh : unfoldedDay ntp pivot < 2 ^ 30) :
    ∃ time, (ntpcalDaysplit (ntpcalNtpToNtp ntp pivot)).hi + 0 + DAY_NTP_STARTS =
        unfoldedDay ntp pivot ∧
      privTimesplit (ntpcalDaysplit (ntpcalNtpToNtp ntp pivot)).lo = (0, time) ∧
      (ntpcalDayjoin (unfoldedDay ntp pivot - DAY_NTP_STARTS)
        (ntpcalDateToDaysec time)).setWidth 32 = ntp := by
  unfold unfoldedDay SECSPERDAY DAY_NTP_STARTS at *
  obtain ⟨v, hv⟩ : ∃ v, ntpcalNtpToNtp ntp pivot = v := ⟨_, rfl⟩
  have hlow32 : v.setWidth 32 = ntp := by
    rw [← hv]
    exact setWidth_unfold _ ntp
  rw [hv] at hlow hhigh ⊢
  obtain ⟨hdays, hsecs⟩ := timesplit_daysec (Int.emod_nonneg v.toInt (by decide))
    (Int.emod_lt_of_pos v.toInt (by decide))
  rw [daysplit_floor (by omega) (by omega)]
  refine ⟨(privTimesplit (v.toInt % 86400)).2, by rw [Int.add_zero], Prod.ext hdays rfl, ?_⟩
  unfold ntpcalDayjoin SECSPERDAY
  rw [hsecs, Int.add_sub_cancel, Int.mul_comm, Int.mul_ediv_add_emod, ofInt_toInt, hlow32]

theorem dateToNtp_unfold {y n : Nat} (hpos : 1 ≤ y) (hle : y ≤ 65535) (hyear : InYear y n)
    (hn : unfoldedDay ntp pivot = n) :
    ntpcalDateToNtp (ntpcalNtpToDate ntp pivot).1.1 (ntpcalNtpToDate ntp pivot).2 = ntp := by
  have hlast := hyear.2
  have hdays := daysInYears_eq y
  obtain ⟨time, hday, htime, hjoin⟩ := @split_unfold ntp pivot (by omega) (by omega)
  obtain ⟨hvalid, -, hordinal, -⟩ := rdToDate_spec hpos hle hyear
  have hdate : ntpcalNtpToDate ntp pivot = (ntpcalRdToDate n, time) := by
    rw [← hn, ← hday]
    change (ntpcalRdToDate (_ + (privTimesplit _).1 + _), (privTimesplit _).2) = _
    rw [htime]
  rw [hdate]
  change (ntpcalDayjoin (ntpcalDateToRd (ntpcalRdToDate n).1 - _) _).setWidth 32 = _
  rw [dateToRd_eq hvalid, hordinal, ← hn, hjoin]

/-- A day is in a year of the ISO calendar. -/
def InIsoYear (y rd : Int) : Prop :=
  7 * isocalWeeksInYears (y - 1) < rd ∧ rd ≤ 7 * isocalWeeksInYears y

instance (y rd : Int) : Decidable (InIsoYear y rd) := inferInstanceAs (Decidable (_ ∧ _))

theorem InIsoYear.bounds {y rd : Int} (hpos : 1 ≤ y) (hle : y ≤ 65535) (h : InIsoYear y rd) :
    -2 ^ 30 ≤ rd ∧ rd < 2 ^ 30 := by
  have hfrom := (weeksInYears_near (y - 1)).1
  have hto := (weeksInYears_near y).2
  rw [daysInYears_floor] at hfrom hto
  obtain ⟨hlow, hhigh⟩ := h
  constructor <;> omega

theorem isocalDateToNtp_unfold {y : Int} (hpos : 1 ≤ y) (hle : y ≤ 65535)
    (hyear : InIsoYear y (unfoldedDay ntp pivot)) :
    isocalDateToNtp (isocalNtpToDate ntp pivot).1 = ntp := by
  obtain ⟨hlow, hhigh⟩ := hyear.bounds hpos hle
  obtain ⟨hfrom, hto⟩ := hyear
  have hmono : StrictMono isocalWeeksInYears := strictMono_int_of_lt_succ fun y => by
    have := weeksInYears_step y
    omega
  obtain ⟨time, hday, htime, hjoin⟩ := split_unfold hlow hhigh
  obtain ⟨k, w, hsplit, hsum, hw, hnext⟩ := splitEraweeks_spec ((unfoldedDay ntp pivot - 1) / 7)
  have hlt : k < y := hmono.lt_iff_lt.mp (by omega)
  have hgt : y - 1 < k + 1 := hmono.lt_iff_lt.mp (by omega)
  have hweek := weeksInYears_step k
  obtain ⟨j, rfl⟩ := Int.eq_ofNat_of_zero_le (show 0 ≤ k by omega)
  obtain ⟨i, rfl⟩ := Int.eq_ofNat_of_zero_le hw
  obtain ⟨d, hd⟩ := Int.eq_ofNat_of_zero_le (Int.emod_nonneg (unfoldedDay ntp pivot - 1)
    (show (7 : Int) ≠ 0 by decide))
  have hdate : (isocalNtpToDate ntp pivot).1 = ⟨ushortSucc j, ucharSucc i, ucharSucc d, time⟩ := by
    unfold isocalNtpToDate
    rw [← hday] at hsplit hd
    simp only [htime, tdiv_floor _ (show (0 : Int) < 7 by decide),
      tmod_floor _ (show (0 : Int) < 7 by decide), hsplit, hd]
  rw [hdate]
  change (ntpcalDayjoin ((isocalWeeksInYears ((ushortSucc j).toNat - 1) +
    (ucharSucc i).toNat - 1) * 7 + (ucharSucc d).toNat - _) _).setWidth 32 = ntp
  rw [toNat_ushortSucc (by omega), toNat_ucharSucc (by omega), toNat_ucharSucc (by omega)]
  have hrd : (isocalWeeksInYears ((j + 1 : Nat) - 1) + (i + 1 : Nat) - 1) * 7 + (d + 1 : Nat) =
      unfoldedDay ntp pivot := by
    rw [show ((j + 1 : Nat) : Int) - 1 = j by omega]
    omega
  rw [hrd, hjoin]

end Dates

/-- The first second of the window, in the Unix scale and in the NTP scale. -/
theorem toInt_first {pivot : BitVec 64} (hlow : -2 ^ 63 + 2 ^ 32 ≤ pivot.toInt)
    (hhigh : pivot.toInt + JAN_1970.toNat + 2 ^ 31 ≤ 2 ^ 63) :
    (pivot - 0x80000000).toInt = pivot.toInt - 2 ^ 31 ∧
      (pivot - 0x80000000 + JAN_1970.setWidth 64).toInt =
        pivot.toInt + JAN_1970.toNat - 2 ^ 31 := by
  have hjan : (JAN_1970.setWidth 64).toInt = 2208988800 := by decide
  have hnat : JAN_1970.toNat = 2208988800 := by decide
  have hhalf : (0x80000000 : BitVec 64).toInt = 2 ^ 31 := by decide
  have hunix : (pivot - 0x80000000).toInt = pivot.toInt - 2 ^ 31 := by
    rw [toInt_sub]
    exact Int.bmod_eq_of_le (by omega) (by omega)
  rw [toInt_add, Int.bmod_eq_of_le (by omega) (by omega)]
  omega

/-- A timestamp is unfolded to the only time with this low half in the window around the
    pivot, in the NTP scale and in the Unix scale, and its dates stand for it in years that
    they have room for. -/
theorem era_unfolding (ntp : BitVec 32) (pivot : BitVec 64) :
    (-2 ^ 63 + 2 ^ 32 ≤ pivot.toInt → pivot.toInt + JAN_1970.toNat + 2 ^ 31 ≤ 2 ^ 63 →
      (∀ v : Int, v = (ntpcalNtpToNtp ntp pivot).toInt ↔ v % 2 ^ 32 = ntp.toNat ∧
        pivot.toInt + JAN_1970.toNat - 2 ^ 31 ≤ v ∧
        v < pivot.toInt + JAN_1970.toNat + 2 ^ 31) ∧
      (ntpcalNtpToTime ntp pivot).toInt + JAN_1970.toNat = (ntpcalNtpToNtp ntp pivot).toInt) ∧
    (∀ y n : Nat, 1 ≤ y → y ≤ 65535 → InYear y n → unfoldedDay ntp pivot = n →
      ntpcalDateToNtp (ntpcalNtpToDate ntp pivot).1.1 (ntpcalNtpToDate ntp pivot).2 = ntp) ∧
    (∀ y : Int, 1 ≤ y → y ≤ 65535 → InIsoYear y (unfoldedDay ntp pivot) →
      isocalDateToNtp (isocalNtpToDate ntp pivot).1 = ntp) := by
  refine ⟨fun hlow hhigh => ?_, fun y n => dateToNtp_unfold, fun y => isocalDateToNtp_unfold⟩
  obtain ⟨hunix, hfirst⟩ := toInt_first hlow hhigh
  have hntp : (ntpcalNtpToNtp ntp pivot).toInt = _ := toInt_unfold ntp (by omega)
  have htime : (ntpcalNtpToTime ntp pivot).toInt = _ := toInt_unfold (ntp - JAN_1970) (by omega)
  have hcongr := toInt_emod (ntpcalNtpToNtp ntp pivot)
  rw [show (ntpcalNtpToNtp ntp pivot).setWidth 32 = ntp from setWidth_unfold _ ntp] at hcongr
  constructor
  · intro v
    constructor
    · rintro rfl
      exact ⟨hcongr, by omega, by omega⟩
    · omega
  · -- What is missing is the same in both scales.
    have hsame : ntp - (pivot - 0x80000000 + JAN_1970.setWidth 64).setWidth 32 =
        ntp - JAN_1970 - (pivot - 0x80000000).setWidth 32 := by
      rw [setWidth_add _ _ (by decide), setWidth_setWidth_of_le _ (by decide),
        setWidth_eq, sub_add_eq_sub_sub_swap]
    rw [hntp, hsame]
    omega

/-- A timestamp of the year 2013. -/
theorem era_unfolding_2013 :
    (ntpcalNtpToTime 3588988800 1380000000).toInt + JAN_1970.toNat =
        (ntpcalNtpToNtp 3588988800 1380000000).toInt ∧
      ntpcalDateToNtp (ntpcalNtpToDate 3588988800 1380000000).1.1
        (ntpcalNtpToDate 3588988800 1380000000).2 = 3588988800 ∧
      isocalDateToNtp (isocalNtpToDate 3588988800 1380000000).1 = 3588988800 :=
  ⟨((era_unfolding _ _).1 (by decide +kernel) (by decide +kernel)).2,
    (era_unfolding _ _).2.1 2013 735135 (by decide) (by decide) (by decide +kernel)
      (by decide +kernel),
    (era_unfolding _ _).2.2 2013 (by decide) (by decide) (by decide +kernel)⟩

/-- The pivot is more than 2^32 seconds from the end, and the time does not fit. -/
theorem window_beyond_range :
    let pivot := BitVec.ofInt 64 (2 ^ 63 - 2 ^ 32 - 1000)
    pivot.toInt = 2 ^ 63 - 2 ^ 32 - 1000 ∧ (ntpcalNtpToNtp 0 pivot).toInt = -2 ^ 63 ∧
      -2 ^ 63 < pivot.toInt + JAN_1970.toNat - 2 ^ 31 := by
  decide

end NtpSuite.Ntpcal
