import Mathlib.Data.List.GetD
import NtpSuite.Lib.Reading

/-!
# Memory that is Written

Octets that are stored in a memory, and what then stands where.

`Stands m off bs` says that the octets `bs` stand at `off`. A list of octets
stands somewhere if and only if its parts stand one behind the other, so what a
program has put together piece by piece is taken apart in the same way. What
stands somewhere still stands there after a store beside it.

## Main definitions

* `store`: Octets are copied to an address.
* `Stands`: Octets stand at an address.

## Theorems

* `stands_append`: A list stands where its parts do.
* `stands_store`, `Stands.store`: What stands after a store.
* `Stands.octetsAt_eq`, `octetsAt_add`: What a range reads.
* `append_halves`: A number that was stored as two octets.
-/

namespace Storing

open Reading List

variable {m : Memory} {off off' a : Nat} {bs xs ys : List (BitVec 8)}

/-- Octets are copied to an address. -/
def store (m : Memory) (off : Nat) (bs : List (BitVec 8)) : Memory := fun a =>
  if off ≤ a then bs.getD (a - off) (m a) else m a

/-- The octets stand at an address. -/
def Stands (m : Memory) (off : Nat) (bs : List (BitVec 8)) : Prop :=
  ∀ i (h : i < bs.length), m (off + i) = bs[i]

theorem store_of_lt (h : a < off) : store m off bs a = m a := if_neg (not_le.mpr h)

theorem store_of_le (h : off + bs.length ≤ a) : store m off bs a = m a := by
  unfold store
  rw [if_pos (by omega)]
  exact getD_eq_default _ _ (by omega)

theorem stands_store : Stands (store m off bs) off bs := by
  intro i hi
  unfold store
  rw [if_pos (by omega), Nat.add_sub_cancel_left, getD_eq_getElem _ _ hi]

theorem Stands.congr {m' : Memory} (h : Stands m off bs)
    (hsame : ∀ a, off ≤ a → a < off + bs.length → m' a = m a) : Stands m' off bs := by
  intro i hi
  rw [hsame _ (by omega) (by omega), h i hi]

/-- What stands somewhere stays there when octets are stored beside it. -/
theorem Stands.store (h : Stands m off bs)
    (hbeside : off + bs.length ≤ off' ∨ off' + ys.length ≤ off) :
    Stands (store m off' ys) off bs := by
  refine h.congr fun a hle hlt => ?_
  rcases hbeside with hbefore | hbehind
  · exact store_of_lt (by omega)
  · exact store_of_le (by omega)

@[simp] theorem stands_nil : Stands m off [] := by
  intro i hi
  cases hi

theorem stands_append :
    Stands m off (xs ++ ys) ↔ Stands m off xs ∧ Stands m (off + xs.length) ys := by
  constructor
  · intro h
    constructor
    · intro i hi
      rw [h i (by rw [length_append]; omega), getElem_append_left hi]
    · intro i hi
      rw [add_assoc, h (xs.length + i) (by rw [length_append]; omega)]
      simp
  · rintro ⟨hxs, hys⟩ i hi
    rw [length_append] at hi
    by_cases hleft : i < xs.length
    · rw [getElem_append_left hleft, hxs i hleft]
    · rw [getElem_append_right (by omega), ← hys (i - xs.length) (by omega)]
      congr 1
      omega

theorem Stands.octetsAt_eq (h : Stands m off bs) : octetsAt m off bs.length = bs := by
  apply ext_getElem
  · simp [octetsAt]
  · intro i hi hi'
    simp [octetsAt, h i hi']

/-- A range reads what its parts do. -/
theorem octetsAt_add (m : Memory) (off a b : Nat) :
    octetsAt m off (a + b) = octetsAt m off a ++ octetsAt m (off + a) b := by
  simp [octetsAt, range_add, add_assoc]

theorem stands_octetsAt (m : Memory) (off len : Nat) : Stands m off (octetsAt m off len) := by
  intro i hi
  simp [octetsAt]

/-- A number is its upper and its lower octet. -/
theorem append_halves (x : BitVec 16) : (x >>> 8).setWidth 8 ++ x.setWidth 8 = x := by
  apply BitVec.eq_of_toNat_eq
  rw [BitVec.toNat_append, ← Nat.shiftLeft_add_eq_or_of_lt (BitVec.isLt _)]
  simp only [BitVec.toNat_setWidth, BitVec.toNat_ushiftRight, Nat.shiftRight_eq_div_pow,
    Nat.shiftLeft_eq]
  omega

end Storing
