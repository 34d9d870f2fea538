import NtpSuite.Core.Intervals

/-!
# Conversions of Intervals

A fraction is half a unit away from its number at most, and both conversions round, so that
it is found again. `L_NEG` has no positive value for `-2 ^ 31` seconds.
-/

namespace NtpSuite.TimeOps

open BitVec

variable {p : Part} {n : Nat}

theorem Part.unit_bounds : 0 < p.unit ∧ p.unit ≤ 1000000000 := by
  cases p <;> decide

section

variable (hn : n < p.unit) (s : Int)

include hn

theorem carry_of_lt : carry p ⟨s, n⟩ = ⟨s, n⟩ := by
  rw [carry, if_neg (by simp), if_neg (by simp; omega)]

theorem normalize_of_lt : normalize p ⟨s, n⟩ = ⟨s, n⟩ := by
  simp only [normalize]
  rw [if_neg (by omega)]
  simpa using carry_of_lt hn s

theorem normalize_borrow : normalize p ⟨s + 1, n - p.unit⟩ = ⟨s, n⟩ := by
  simp only [normalize]
  rw [if_neg (by omega), carry, if_pos (by simp; omega)]
  simpa using carry_of_lt hn s

theorem toFraction_near :
    (toFraction p n).toNat * p.unit ≤ n * 2 ^ 32 + p.unit / 2 ∧
      n * 2 ^ 32 + p.unit / 2 < (toFraction p n).toNat * p.unit + p.unit := by
  have hU := p.unit_bounds
  have hdiv : (n * 2 ^ 32 + p.unit / 2) / p.unit < 2 ^ 32 :=
    (Nat.div_lt_iff_lt_mul hU.1).2 (by omega)
  simp only [toFraction, ofInt_natCast, toNat_ofNat]
  rw [Nat.mod_eq_of_lt (a := n) (by omega), Nat.mod_eq_of_lt (b := 2 ^ 64) (by omega),
    Nat.mod_eq_of_lt hdiv]
  exact ⟨Nat.div_mul_le_self _ _, Nat.lt_div_mul_add hU.1⟩

end

theorem ofFraction_eq {f : BitVec 32} (hn : n ≤ p.unit)
    (hle : n * 2 ^ 32 ≤ f.toNat * p.unit + 0x80000000)
    (hlt : f.toNat * p.unit + 0x80000000 < (n + 1) * 2 ^ 32) : ofFraction p f = n := by
  have hU := p.unit_bounds
  rw [ofFraction, Nat.mod_eq_of_lt (by omega), Nat.div_eq_of_lt_le hle hlt,
    toInt_eq_toNat_of_lt] <;> simp <;> omega

theorem lfpIntvTo_seconds {sec : BitVec 32} (hneg : sec.msb) :
    lfpIntvTo p ⟨sec, 0#32⟩ = ⟨-(-sec).toInt, 0⟩ := by
  have hof : ofFraction p 0#32 = (0 : Nat) := ofFraction_eq (by simp) (by simp) (by simp)
  have hnorm := normalize_of_lt p.unit_bounds.1
  simp_all [lfpIntvTo, Halves.neg, ← neg_eq_not_add, -toInt_add, -toInt_not]

theorem lfpIntvTo_intvToLfp (sec : BitVec 32) (hn : n < p.unit) :
    lfpIntvTo p (intvToLfp p ⟨sec.toInt, n⟩) = ⟨sec.toInt, n⟩ ↔ ¬(sec = .intMin 32 ∧ n = 0) := by
  have hU := p.unit_bounds
  have hf := toFraction_near hn
  simp only [intvToLfp, normalize_of_lt hn, ofInt_toInt]
  generalize toFraction p n = f at *
  by_cases hneg : sec.msb
  · -- `L_NEG` takes the carry into the seconds only without a fraction.
    by_cases hzero : -f = 0#32
    · obtain rfl : f = 0#32 := neg_eq_zero_iff.1 hzero
      rw [toNat_zero] at hf
      obtain rfl : n = 0 := by omega
      rw [lfpIntvTo_seconds hneg, TimeSpec.mk.injEq]
      rcases eq_or_ne sec (.intMin 32) with rfl | hmin
      · decide
      · simp [hmin, toInt_neg_of_ne_intMin]
    · have hpos : f.toNat ≠ 0 := by bv_omega
      have hmul : p.unit ≤ f.toNat * p.unit := Nat.le_mul_of_pos_left _ (by omega)
      have hcompl : (-f).toNat * p.unit = 2 ^ 32 * p.unit - f.toNat * p.unit := by
        rw [toNat_neg, Nat.mod_eq_of_lt (by omega), Nat.sub_mul]
      have hof : ofFraction p (-f) = (p.unit - n : Nat) :=
        ofFraction_eq (by omega) (by omega) (by omega)
      have hsec : -(~~~sec).toInt = sec.toInt + 1 := by
        simp only [toInt_eq_toNat_cond, toNat_not]
        omega
      simp only [lfpIntvTo, hneg, if_true, Halves.neg, hof, if_neg hzero, BitVec.add_zero, hsec,
        Nat.cast_sub hn.le, Int.neg_sub, normalize_borrow hn, true_iff]
      omega
  · have hof : ofFraction p f = n := ofFraction_eq hn.le (by omega) (by omega)
    have hmin : sec ≠ .intMin 32 := fun h => hneg (h ▸ by decide)
    simp [lfpIntvTo, hneg, hof, hmin]

theorem intv_roundTrip_iff (sec : BitVec 32) (nsec : Fin Part.nsec.unit)
    (usec : Fin Part.usec.unit) :
    (lfpIntvToTspec (tspecIntvToLfp ⟨sec.toInt, nsec⟩) = ⟨sec.toInt, nsec⟩ ↔
      ¬(sec = .intMin 32 ∧ nsec.1 = 0)) ∧
    (lfpIntvToTval (tvalIntvToLfp ⟨sec.toInt, usec⟩) = ⟨sec.toInt, usec⟩ ↔
      ¬(sec = .intMin 32 ∧ usec.1 = 0)) :=
  ⟨lfpIntvTo_intvToLfp sec nsec.2, lfpIntvTo_intvToLfp sec usec.2⟩

theorem lfpIntvToTspec_intMin : lfpIntvToTspec (tspecIntvToLfp ⟨-2 ^ 31, 0⟩) = ⟨2 ^ 31, 0⟩ := by
  have hnorm := normalize_of_lt Part.nsec.unit_bounds.1 (-2 ^ 31)
  have hfrac : toFraction .nsec 0 = 0#32 := by decide
  rw [tspecIntvToLfp, intvToLfp, ← Nat.cast_zero, hnorm]
  exact hfrac ▸ lfpIntvTo_seconds (by decide)

end NtpSuite.TimeOps
