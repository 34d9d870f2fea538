import NtpSuite.Lib.Storing

/-!
# Buffers with their Writes

A buffer is a memory together with the ranges that were written to it. The memory
has no end. Whether a program stays inside the octets that were reserved is a
question about the ranges, which can be asked for every size.

## Main definitions

* `Buffer`: A memory and what was written to it.
* `Buffer.put`: Octets are written.
* `Buffer.Within`: Everything was written inside the first octets.

## Theorems

* `Buffer.within_put`, `Buffer.stands_put`: One more write.
-/

open Reading
open Storing

/-- A memory, and the ranges that were written to it. -/
structure Buffer where
  mem : Memory
  writes : List Extent := []

namespace Buffer

variable {b : Buffer} {n off : Nat} {bs : List (BitVec 8)}

/-- Octets are written at an address. -/
def put (b : Buffer) (off : Nat) (bs : List (BitVec 8)) : Buffer :=
  ⟨store b.mem off bs, ⟨off, bs.length⟩ :: b.writes⟩

/-- Everything was written inside the first `n` octets. -/
def Within (n : Nat) (b : Buffer) : Prop := ∀ r ∈ b.writes, r.len = 0 ∨ r.off + r.len ≤ n

theorem within_nil (m : Memory) : Within n ⟨m, []⟩ := nofun

@[simp] theorem within_put :
    (b.put off bs).Within n ↔ (bs.length = 0 ∨ off + bs.length ≤ n) ∧ b.Within n :=
  List.forall_mem_cons

/-- What was written stands in the memory. -/
theorem stands_put : Stands (b.put off bs).mem off bs := stands_store

instance (n : Nat) (b : Buffer) : Decidable (b.Within n) :=
  inferInstanceAs (Decidable (∀ r ∈ b.writes, r.len = 0 ∨ r.off + r.len ≤ n))

end Buffer
