import Mathlib

/-!
# Leaky Buckets

A counter that drains with time, by which a server limits how often it
answers. Requests come one after the other, each some time after the one
before. The bucket drains by that time, but not below zero. Then the request
passes and the level rises by a fixed gain, if it stays below the top; or it
is turned down. The first time it is turned down below some limit it gets a
notice, and the level is set to a peak above the limit; otherwise it is
dropped.

A run is a list of intervals with what became of each request. What is said of
runs here does not need to know when a request passes, only what happens to
the level when it does. The level never falls by more than the time that
passes, which is all there is to both results: the gains of all the requests
that passed are no more than the time and the top, and between two notices at
least the way from the peak to the limit has to drain.

## Main definitions

* `Bucket`: The gain, the top, the limit and the peak.
* `Runs`: A run from a level.

## Theorems

* `Runs.drop`: The level after a part of a run.
* `passes_le`: How many requests pass.
* `notices_apart`: How far two notices are apart.
-/

namespace LeakyBucket

variable {R : Type} [CommRing R] [LinearOrder R] [IsStrictOrderedRing R]

/-- What becomes of a request. -/
inductive Verdict where
  | pass | notice | drop
deriving DecidableEq, Repr

/-- A bucket. -/
structure Bucket (R : Type) where
  gain : R
  top : R
  limit : R
  peak : R

/-- The level after some time. -/
def drained (level d : R) : R := max 0 (level - d)

/-- One request. -/
def Step (b : Bucket R) (level : R) (x : R × Verdict) (level' : R) : Prop :=
  match x.2 with
  | .pass => level' = drained level x.1 + b.gain ∧ level' ≤ b.top
  | .notice => drained level x.1 < b.limit ∧ level' = b.peak
  | .drop => level' = drained level x.1

/-- A run from a level. -/
def Runs (b : Bucket R) : R → List (R × Verdict) → Prop
  | _, [] => True
  | level, x :: xs => ∃ level', Step b level x level' ∧ Runs b level' xs

/-- The time that a run takes. -/
def elapsed (xs : List (R × Verdict)) : R := (xs.map Prod.fst).sum

/-- The number of requests that pass. -/
def passes (xs : List (R × Verdict)) : Nat := xs.countP fun x => x.2 = .pass

/-- A bucket in which passing does not lower the level, nor does a notice. -/
structure Bucket.Sound (b : Bucket R) : Prop where
  gain : 0 ≤ b.gain
  peak : b.limit ≤ b.peak

variable {b : Bucket R} {level level' : R} {x : R × Verdict} {xs ys : List (R × Verdict)}

omit [LinearOrder R] [IsStrictOrderedRing R] in
theorem elapsed_cons (x : R × Verdict) (xs : List (R × Verdict)) :
    elapsed (x :: xs) = x.1 + elapsed xs := by
  simp [elapsed]

theorem elapsed_nonneg (hxs : ∀ x ∈ xs, 0 ≤ x.1) : 0 ≤ elapsed xs := by
  apply List.sum_nonneg
  intro d hd
  obtain ⟨x, hx, rfl⟩ := List.mem_map.mp hd
  exact hxs x hx

/-- The level falls by no more than the time, and rises by the gain of what passes. -/
theorem Step.le (hb : b.Sound) (h : Step b level x level') :
    level - x.1 + (if x.2 = .pass then b.gain else 0) ≤ level' := by
  have hdrained : level - x.1 ≤ drained level x.1 := le_max_right _ _
  unfold Step at h
  cases hx : x.2 with
  | pass =>
    simp only [hx] at h
    rw [if_pos rfl]
    linarith
  | notice =>
    simp only [hx] at h
    rw [if_neg (by decide)]
    linarith [hb.peak, h.1]
  | drop =>
    simp only [hx] at h
    rw [if_neg (by decide)]
    linarith

/-- The level after a part of a run. -/
theorem Runs.drop (hb : b.Sound) (h : Runs b level (xs ++ ys)) :
    ∃ level', level - elapsed xs ≤ level' ∧ Runs b level' ys := by
  induction xs generalizing level with
  | nil => exact ⟨level, by simp [elapsed], h⟩
  | cons x xs ih =>
    obtain ⟨next, hstep, hrest⟩ := h
    obtain ⟨level', hle, hys⟩ := ih hrest
    refine ⟨level', ?_, hys⟩
    have hnext := hstep.le hb
    have hgain : (0 : R) ≤ if x.2 = .pass then b.gain else 0 := by
      split_ifs
      · exact hb.gain
      · exact le_refl 0
    rw [elapsed_cons]
    linarith

/-- Up to the last request that passes, the level has risen by all the gains
    and fallen by no more than the time, and it is then below the top. -/
theorem passes_le_of_pos (hb : b.Sound) (hxs : ∀ x ∈ xs, 0 ≤ x.1) (h : Runs b level xs)
    (hpos : 0 < passes xs) : passes xs * b.gain ≤ elapsed xs + b.top - level := by
  induction xs generalizing level with
  | nil => simp [passes] at hpos
  | cons x xs ih =>
    obtain ⟨next, hstep, hrest⟩ := h
    have hnext := hstep.le hb
    have htail : ∀ y ∈ xs, 0 ≤ y.1 := fun y hy => hxs y (List.mem_cons_of_mem x hy)
    have hcount : passes (x :: xs) = passes xs + if x.2 = .pass then 1 else 0 := by
      simp [passes, List.countP_cons]
    have hcast : (passes (x :: xs) : R) * b.gain =
        passes xs * b.gain + if x.2 = .pass then b.gain else 0 := by
      rw [hcount]
      split_ifs
      · push_cast
        ring
      · push_cast
        ring
    rw [hcast, elapsed_cons]
    by_cases hmore : 0 < passes xs
    · have hih := ih htail hrest hmore
      linarith
    · -- This is the last one that passes, and it leaves the level below the top.
      have hzero : passes xs = 0 := by omega
      have hpass : x.2 = .pass := by
        by_contra hne
        rw [hcount, if_neg hne] at hpos
        omega
      have htop : next ≤ b.top := by
        unfold Step at hstep
        simp only [hpass] at hstep
        exact hstep.2
      have := elapsed_nonneg htail
      rw [hzero]
      push_cast
      linarith

/-- The gains of the requests that pass are no more than the time and the top. -/
theorem passes_le (hb : b.Sound) (htop : 0 ≤ b.top) (hxs : ∀ x ∈ xs, 0 ≤ x.1)
    (h : Runs b 0 xs) : passes xs * b.gain ≤ elapsed xs + b.top := by
  by_cases hpos : 0 < passes xs
  · have := passes_le_of_pos hb hxs h hpos
    linarith
  · have hzero : passes xs = 0 := by omega
    have := elapsed_nonneg hxs
    rw [hzero]
    push_cast
    linarith

/-- From one notice to another the bucket has to drain from the peak to the limit. -/
theorem notices_apart (hb : b.Sound) {x y : R × Verdict} {zs : List (R × Verdict)}
    (h : Runs b level (xs ++ x :: (ys ++ y :: zs))) (hx : x.2 = .notice) (hy : y.2 = .notice) :
    b.peak - b.limit < elapsed (ys ++ [y]) := by
  obtain ⟨before, -, next, hstep, hrest⟩ := h.drop hb
  obtain ⟨level', hle, last, hlast, -⟩ := hrest.drop hb
  unfold Step at hstep hlast
  simp only [hx] at hstep
  simp only [hy] at hlast
  have hdrained : level' - y.1 ≤ drained level' y.1 := le_max_right _ _
  have hsum : elapsed (ys ++ [y]) = elapsed ys + y.1 := by simp [elapsed]
  linarith [hstep.2, hlast.1]

end LeakyBucket
