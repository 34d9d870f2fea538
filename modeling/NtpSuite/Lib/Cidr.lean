import Mathlib

/-!
# Network Masks

A mask of length `k` has its `k` highest bits set and no others.

Two such masks are nested: the shorter one is contained in the longer one. So
of two networks that contain an address, the one with the longer mask has the
larger mask and, since masking with the longer one keeps more bits, no smaller
network address. In a list that is sorted by descending network address and
then by descending mask, it comes first. That is what a lookup that takes the
first hit relies on.

## Main definitions

* `mask`: The mask of a given length.
* `IsMask`: The number is a mask.
* `length`: The number of bits that are set.

## Theorems

* `mask_and_mask`: Masks are nested.
* `length_mask`: A mask has the length it was made with.
* `lt_of_length_lt`: The longer mask is the larger number.
* `and_le_and_of_length_lt`: It keeps no smaller number of an address.
* `eq_of_length_eq`: There is one mask of each length.
-/

namespace Cidr

variable {w : Nat}

/-- The mask of length `k`. -/
def mask (w k : Nat) : BitVec w := BitVec.allOnes w <<< (w - k)

@[simp] theorem getLsbD_mask (w k i : Nat) :
    (mask w k).getLsbD i = (decide (i < w) && decide (w - k ≤ i)) := by
  unfold mask
  by_cases hi : i < w
  · by_cases hk : i < w - k
    · simp [hi, hk]
      omega
    · simp [hi, hk]
      omega
  · simp [hi]

/-- Masks are nested. -/
theorem mask_and_mask {k l : Nat} (hkl : k ≤ l) : mask w l &&& mask w k = mask w k := by
  apply BitVec.eq_of_getLsbD_eq
  intro i hi
  simp only [BitVec.getLsbD_and, getLsbD_mask, hi, decide_true, Bool.true_and,
    Bool.and_eq_right_iff_imp, decide_eq_true_eq]
  omega

/-- The number is a mask. -/
def IsMask (m : BitVec w) : Prop := ∃ k ≤ w, m = mask w k

instance (m : BitVec w) : Decidable (IsMask m) :=
  decidable_of_iff (∃ k < w + 1, m = mask w k) <| by
    unfold IsMask
    simp only [Nat.lt_succ_iff]

theorem isMask_zero : IsMask (0 : BitVec w) := ⟨0, Nat.zero_le w, by simp [mask]⟩

theorem isMask_allOnes : IsMask (BitVec.allOnes w) := ⟨w, le_refl w, by simp [mask]⟩

/-- The number of bits that are set. -/
def length (m : BitVec w) : Nat := ((Finset.range w).filter fun i => m.getLsbD i).card

/-- A mask has the length it was made with. -/
theorem length_mask {k : Nat} (hk : k ≤ w) : length (mask w k) = k := by
  have hset : ((Finset.range w).filter fun i => (mask w k).getLsbD i) = Finset.Ico (w - k) w := by
    ext i
    simp only [Finset.mem_filter, Finset.mem_range, getLsbD_mask, Bool.and_eq_true,
      decide_eq_true_eq, Finset.mem_Ico]
    omega
  unfold length
  rw [hset, Nat.card_Ico]
  omega

/-- There is one mask of each length. -/
theorem eq_of_length_eq {m n : BitVec w} (hm : IsMask m) (hn : IsMask n)
    (hlen : length m = length n) : m = n := by
  obtain ⟨k, hk, rfl⟩ := hm
  obtain ⟨l, hl, rfl⟩ := hn
  rw [length_mask hk, length_mask hl] at hlen
  rw [hlen]

/-- The shorter mask is contained in the longer one. -/
theorem and_eq_of_length_lt {m n : BitVec w} (hm : IsMask m) (hn : IsMask n)
    (hlen : length m < length n) : n &&& m = m := by
  obtain ⟨k, hk, rfl⟩ := hm
  obtain ⟨l, hl, rfl⟩ := hn
  rw [length_mask hk, length_mask hl] at hlen
  exact mask_and_mask (le_of_lt hlen)

/-- The longer mask is the larger number. -/
theorem lt_of_length_lt {m n : BitVec w} (hm : IsMask m) (hn : IsMask n)
    (hlen : length m < length n) : m.toNat < n.toNat := by
  have hand := congrArg BitVec.toNat (and_eq_of_length_lt hm hn hlen)
  have hle : m.toNat ≤ n.toNat := hand ▸ Nat.and_le_left
  refine lt_of_le_of_ne hle fun heq => ?_
  rw [BitVec.eq_of_toNat_eq heq] at hlen
  exact lt_irrefl _ hlen

/-- It keeps no smaller number of an address. -/
theorem and_le_and_of_length_lt {m n : BitVec w} (hm : IsMask m) (hn : IsMask n)
    (hlen : length m < length n) (a : BitVec w) : (a &&& m).toNat ≤ (a &&& n).toNat := by
  have hand : a &&& m = (a &&& n) &&& m := by
    rw [BitVec.and_assoc, and_eq_of_length_lt hm hn hlen]
  rw [hand]
  exact Nat.and_le_left

end Cidr
