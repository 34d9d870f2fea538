import Mathlib

/-!
# Selection Sort

The in-place selection sort of an array of items by a key. The array is the
list of the places not yet settled: a round finds the first of the least
items, exchanges it with the item in front, and goes on with the rest.

The sort moves whole items and never looks at anything but their keys, so
nothing is assumed of the items themselves.

## Main definitions

* `minIndex`: The position of the first least item.
* `sort`: The sort.

## Theorems

* `minIndex_spec`: What a scan for the least item ends with.
* `sort_perm`: The sort permutes its input.
* `sort_pairwise`: The sort leaves the keys in order.
-/

namespace SelectionSort

open List

variable {ι α : Type} [LinearOrder α]

/-- The scan of one round. `e` is the least key so far, `k` its place and `j`
    the place of the next item. -/
def minIndex (key : ι → α) (e : α) (k j : Nat) : List ι → Nat
  | [] => k
  | y :: ys => if key y < e then minIndex key (key y) j (j + 1) ys else minIndex key e k (j + 1) ys

/-- The rounds of the sort, one for each unit of fuel. -/
def sortLoop (key : ι → α) : Nat → List ι → List ι
  | fuel + 1, x :: xs =>
    match minIndex key (key x) 0 1 xs with
    | 0 => x :: sortLoop key fuel xs
    | k + 1 => xs.getD k x :: sortLoop key fuel (xs.set k x)
  | _, xs => xs

/-- Selection sort by a key. -/
def sort (key : ι → α) (xs : List ι) : List ι :=
  sortLoop key xs.length xs

variable (key : ι → α) (xs : List ι)

/-- A scan either keeps the place it started with, and no item is less, or ends at an item that is
    less than the key it started with and at most every other one. -/
theorem minIndex_spec (e : α) (k j : Nat) :
    (minIndex key e k j xs = k ∧ ∀ y ∈ xs, e ≤ key y)
      ∨ ∃ m, ∃ y, minIndex key e k j xs = j + m ∧ xs[m]? = some y ∧ key y < e
        ∧ ∀ z ∈ xs, key y ≤ key z := by
  induction xs generalizing e k j with
  | nil => exact .inl ⟨rfl, by simp⟩
  | cons x xs ih =>
    by_cases hlt : key x < e
    · -- A new least item: the rest of the scan is against its key.
      right
      rw [minIndex, if_pos hlt]
      rcases ih (key x) j (j + 1) with ⟨hk, hall⟩ | ⟨m, y, hm, hget, hy, hall⟩
      · refine ⟨0, x, hk, rfl, hlt, ?_⟩
        intro z hz
        rcases mem_cons.mp hz with rfl | hz
        · exact le_refl _
        · exact hall z hz
      · refine ⟨m + 1, y, by omega, by simpa using hget, hy.trans hlt, ?_⟩
        intro z hz
        rcases mem_cons.mp hz with rfl | hz
        · exact hy.le
        · exact hall z hz
    · rw [minIndex, if_neg hlt]
      rcases ih e k (j + 1) with ⟨hk, hall⟩ | ⟨m, y, hm, hget, hy, hall⟩
      · refine .inl ⟨hk, ?_⟩
        intro z hz
        rcases mem_cons.mp hz with rfl | hz
        · exact not_lt.mp hlt
        · exact hall z hz
      · refine .inr ⟨m + 1, y, by omega, by simpa using hget, hy, ?_⟩
        intro z hz
        rcases mem_cons.mp hz with rfl | hz
        · exact hy.le.trans (not_lt.mp hlt)
        · exact hall z hz

/-- Exchanging the front item with another one permutes the list. -/
theorem perm_exchange (x y : ι) (xs : List ι) (k : Nat) (h : xs[k]? = some y) :
    (y :: xs.set k x).Perm (x :: xs) := by
  induction xs generalizing k with
  | nil => simp at h
  | cons z xs ih =>
    rcases k with _ | k
    · have hz : z = y := by simpa using h
      subst hz
      exact List.Perm.swap _ _ _
    · have hk : xs[k]? = some y := by simpa using h
      -- Exchange in the tail, with the front moved out of the way and back.
      have hswap := (ih k hk).cons z
      exact ((List.Perm.swap _ _ _).trans hswap).trans (List.Perm.swap _ _ _)

/-- A round puts an item in front that is at most every other one, and permutes the rest. -/
theorem sortLoop_succ (fuel : Nat) (x : ι) (xs : List ι) :
    ∃ y ys, sortLoop key (fuel + 1) (x :: xs) = y :: sortLoop key fuel ys
      ∧ (y :: ys).Perm (x :: xs) ∧ ∀ z ∈ ys, key y ≤ key z := by
  rcases minIndex_spec key xs (key x) 0 1 with ⟨hk, hall⟩ | ⟨m, y, hm, hget, hy, hall⟩
  · refine ⟨x, xs, ?_, List.Perm.refl _, hall⟩
    simp only [sortLoop, hk]
  · refine ⟨y, xs.set m x, ?_, perm_exchange x y xs m hget, ?_⟩
    · rw [add_comm] at hm
      simp [sortLoop, hm, List.getD, hget]
    · intro z hz
      rcases mem_or_eq_of_mem_set hz with hz | rfl
      · exact hall z hz
      · exact hy.le

/-- The loop permutes its input. -/
theorem sortLoop_perm (fuel : Nat) (xs : List ι) : (sortLoop key fuel xs).Perm xs := by
  induction fuel generalizing xs with
  | zero => exact List.Perm.refl _
  | succ fuel ih =>
    rcases xs with _ | ⟨x, xs⟩
    · exact List.Perm.refl _
    · obtain ⟨y, ys, heq, hperm, _⟩ := sortLoop_succ key fuel x xs
      rw [heq]
      exact ((ih ys).cons y).trans hperm

/-- With a round for each item the loop leaves the keys in order. -/
theorem sortLoop_pairwise (fuel : Nat) (xs : List ι) (hf : xs.length ≤ fuel) :
    (sortLoop key fuel xs).Pairwise (fun a b => key a ≤ key b) := by
  induction fuel generalizing xs with
  | zero =>
    have hnil : xs = [] := length_eq_zero_iff.mp (by omega)
    rw [hnil]
    exact List.Pairwise.nil
  | succ fuel ih =>
    rcases xs with _ | ⟨x, xs⟩
    · exact List.Pairwise.nil
    · obtain ⟨y, ys, heq, hperm, hle⟩ := sortLoop_succ key fuel x xs
      -- The round used up one item and one unit of fuel.
      have hlen : ys.length ≤ fuel := by
        have := hperm.length_eq
        simp only [length_cons] at this hf
        omega
      rw [heq]
      refine List.Pairwise.cons ?_ (ih ys hlen)
      intro z hz
      exact hle z ((sortLoop_perm key fuel ys).mem_iff.mp hz)

/-- The sort permutes its input. -/
theorem sort_perm : (sort key xs).Perm xs :=
  sortLoop_perm key xs.length xs

/-- The sort leaves the keys in order. -/
theorem sort_pairwise : (sort key xs).Pairwise (fun a b => key a ≤ key b) :=
  sortLoop_pairwise key xs.length xs (le_refl _)

end SelectionSort
