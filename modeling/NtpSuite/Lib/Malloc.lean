import Mathlib

/-!
# Memory from an Allocator

The memory that a program asks for and gives back by hand. A block is known by
its address, and addresses are handed out in ascending order and never again,
so that an address that was given back stays recognisable. Zero is the null
pointer.

A block has the octets the program asked for. A copy of octets into a block is
made if the block is live and long enough, and otherwise nothing is stored:
what a program does then is not defined, and `Holds` is the question to ask
before.

## Main definitions

* `Heap`: The blocks.
* `Heap.Holds`: A live block of at least so many octets.
* `Heap.malloc`, `Heap.write`, `Heap.free`, `Heap.read`: What a program can do.
* `Heap.Wf`: Live blocks have been handed out.
-/

namespace Malloc

open Function

/-- A block of memory. -/
structure Block where
  live : Bool := false
  octets : List (BitVec 8) := []
deriving DecidableEq, Repr

/-- All blocks, and the address of the next. -/
structure Heap where
  block : Nat → Block := fun _ => {}
  next : Nat := 1

namespace Heap

variable {h : Heap} {p q n : Nat} {data : List (BitVec 8)}

/-- The address is that of a live block of at least `n` octets. -/
def Holds (h : Heap) (p n : Nat) : Prop :=
  (h.block p).live = true ∧ n ≤ (h.block p).octets.length

instance (h : Heap) (p n : Nat) : Decidable (h.Holds p n) := inferInstanceAs (Decidable (_ ∧ _))

/-- A new block. -/
def malloc (h : Heap) (size : Nat) : Heap × Nat :=
  ({ block := update h.block h.next { live := true, octets := List.replicate size 0 }
     next := h.next + 1 }, h.next)

/-- Octets are copied to the beginning of a block. -/
def write (h : Heap) (p : Nat) (data : List (BitVec 8)) : Heap :=
  if h.Holds p data.length then
    { h with
      block := update h.block p
        { live := true, octets := data ++ (h.block p).octets.drop data.length } }
  else h

/-- A block is given back. -/
def free (h : Heap) (p : Nat) : Heap :=
  { h with block := update h.block p { h.block p with live := false } }

/-- The first octets of a block. -/
def read (h : Heap) (p n : Nat) : List (BitVec 8) := (h.block p).octets.take n

/-- Live blocks have been handed out, and the null pointer never is. -/
structure Wf (h : Heap) : Prop where
  pos : 0 < h.next
  past : ∀ p, (h.block p).live = true → 0 < p ∧ p < h.next

theorem wf_empty : Wf {} := ⟨one_pos, by simp⟩

/-! ### What stays -/

@[simp] theorem write_next (h : Heap) (p : Nat) (data : List (BitVec 8)) :
    (h.write p data).next = h.next := by
  unfold write
  split_ifs <;> rfl

theorem malloc_block_of_ne (size : Nat) (hne : q ≠ h.next) :
    (h.malloc size).1.block q = h.block q :=
  update_of_ne hne _ _

theorem write_block_of_ne (hne : q ≠ p) : (h.write p data).block q = h.block q := by
  unfold write
  split_ifs
  · exact update_of_ne hne _ _
  · rfl

theorem free_block_of_ne (hne : q ≠ p) : (h.free p).block q = h.block q :=
  update_of_ne hne _ _

/-! ### What is stored -/

theorem malloc_holds (h : Heap) {size : Nat} (hn : n ≤ size) :
    (h.malloc size).1.Holds (h.malloc size).2 n := by
  simp [Holds, malloc, hn]

/-- A block that can hold the octets has them afterwards. -/
theorem write_holds (hholds : h.Holds p data.length) :
    (h.write p data).Holds p data.length ∧ (h.write p data).read p data.length = data := by
  unfold write
  rw [if_pos hholds]
  simp [Holds, read]

/-- A write that cannot be made leaves all as it was. -/
theorem write_of_not_holds (hholds : ¬h.Holds p data.length) : h.write p data = h :=
  if_neg hholds

/-- The length of a block does not change, and whether it is live. -/
theorem write_holds_iff : (h.write p data).Holds q n ↔ h.Holds q n := by
  by_cases hq : q = p
  · subst hq
    unfold write
    split_ifs with hholds
    · have hlen := hholds.2
      simp only [Holds, update_self, List.length_append, List.length_drop, true_and, hholds.1]
      omega
    · rfl
  · unfold Holds
    rw [write_block_of_ne hq]

/-! ### Well-formedness -/

theorem Wf.holds_pos (hwf : h.Wf) (hholds : h.Holds p n) : 0 < p := (hwf.past p hholds.1).1

theorem Wf.malloc (hwf : h.Wf) (size : Nat) : (h.malloc size).1.Wf := by
  refine ⟨Nat.succ_pos _, fun q hq => ?_⟩
  by_cases hne : q = h.next
  · subst hne
    exact ⟨hwf.pos, Nat.lt_succ_self _⟩
  · rw [malloc_block_of_ne size hne] at hq
    exact ⟨(hwf.past q hq).1, (hwf.past q hq).2.trans (Nat.lt_succ_self _)⟩

theorem Wf.write (hwf : h.Wf) (p : Nat) (data : List (BitVec 8)) : (h.write p data).Wf := by
  refine ⟨by rw [write_next]; exact hwf.pos, fun q hq => ?_⟩
  rw [write_next]
  have hholds : (h.write p data).Holds q 0 := ⟨hq, Nat.zero_le _⟩
  exact hwf.past q (write_holds_iff.mp hholds).1

theorem Wf.free (hwf : h.Wf) (p : Nat) : (h.free p).Wf := by
  refine ⟨hwf.pos, fun q hq => ?_⟩
  by_cases hne : q = p
  · subst hne
    simp [Heap.free] at hq
  · rw [free_block_of_ne hne] at hq
    exact hwf.past q hq

end Heap

end Malloc
