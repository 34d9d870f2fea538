import Mathlib

/-!
# Intervals

A `struct timespec` and a `struct timeval` of an interval, and its NTP format.
-/

namespace NtpSuite.TimeOps

inductive Part
  | nsec
  | usec

/-- `NANOSECONDS` and `MICROSECONDS`. -/
def Part.unit : Part → Nat
  | nsec => 1000000000
  | usec => 1000000

/-- `struct timespec`, and `struct timeval` with microseconds. -/
structure TimeSpec where
  tv_sec : Int
  tv_nsec : Int

/-- The halves of an `l_fp`. -/
structure Halves where
  l_ui : BitVec 32
  l_uf : BitVec 32

/-- `L_NEG`. -/
def Halves.neg (v : Halves) : Halves :=
  ⟨~~~v.l_ui + if -v.l_uf = 0#32 then 1#32 else 0#32, -v.l_uf⟩

variable (p : Part)

/-- The loops of `normalize`, of which a call enters one at most. -/
def carry (x : TimeSpec) : TimeSpec :=
  if x.tv_nsec < 0 then carry ⟨x.tv_sec - 1, x.tv_nsec + p.unit⟩
  else if x.tv_nsec ≥ p.unit then carry ⟨x.tv_sec + 1, x.tv_nsec - p.unit⟩
  else x
termination_by (max (-x.tv_nsec) (x.tv_nsec - p.unit + 1)).toNat
decreasing_by all_goals cases p <;> simp only [Part.unit] at * <;> omega

/-- `normalize_tspec` and `normalize_tval`. -/
def normalize (x : TimeSpec) : TimeSpec :=
  let z := if x.tv_nsec < -3 * p.unit ∨ x.tv_nsec > 3 * p.unit
    then x.tv_nsec.tdiv p.unit else 0
  carry p ⟨x.tv_sec + z, x.tv_nsec - z * p.unit⟩

/-- `TVNTOF` and `TVUTOTSF`. -/
def toFraction (n : Int) : BitVec 32 :=
  let tvu := (BitVec.ofInt 64 n).toNat
  .ofNat 32 ((tvu * 2 ^ 32 + p.unit / 2) % 2 ^ 64 / p.unit)

/-- `FTOTVN` and `TSFTOTVU`. -/
def ofFraction (f : BitVec 32) : Int :=
  (BitVec.ofNat 32 ((f.toNat * p.unit + 0x80000000) % 2 ^ 64 / 2 ^ 32)).toInt

def intvToLfp (x : TimeSpec) : Halves :=
  let v := normalize p x
  ⟨.ofInt 32 v.tv_sec, toFraction p v.tv_nsec⟩

def lfpIntvTo (x : Halves) : TimeSpec :=
  let absx := if x.l_ui.msb then x.neg else x
  let out : TimeSpec := ⟨absx.l_ui.toInt, ofFraction p absx.l_uf⟩
  if x.l_ui.msb then normalize p ⟨-out.tv_sec, -out.tv_nsec⟩ else out

def tspecIntvToLfp := intvToLfp .nsec
def lfpIntvToTspec := lfpIntvTo .nsec
def tvalIntvToLfp := intvToLfp .usec
def lfpIntvToTval := lfpIntvTo .usec

end NtpSuite.TimeOps
