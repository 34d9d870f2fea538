import Mathlib.Data.BitVec
import Mathlib.Data.List.Basic

/-!
# Computations that Read Memory

A computation that reads octets of a memory, with the ranges it reads. The
ranges are part of the computation and not a list beside it: a `Reading`
carries the proof that its result depends on nothing else, so a program put
together from the readings here has no way to look at an octet that is not in
one of its ranges.

`Inside` says that all ranges end at or below a bound. Its rules follow the
structure of a program, and turn the question whether a program stays inside
into inequalities between the offsets and the lengths it uses. The rules for
a reading and what follows it are stated together, so that the octets are
named everywhere in what follows, also in the instances that decide its tests.

## Main definitions

* `Reading`: A computation with the ranges it reads.
* `Reading.bytes`, `Reading.word`: The readings there are.
* `Reading.Inside`: All ranges end at or below a bound.

## Theorems

* `inside_pure`, `inside_bind`, `inside_ite`, `inside_bytes_bind`,
  `inside_word_bind`: The rules.
-/

/-- The octets from an address on. -/
abbrev Memory := Nat → BitVec 8

/-- A range of octets. -/
structure Extent where
  off : Nat
  len : Nat
deriving DecidableEq, Repr

/-- A computation that reads memory: its result, the ranges it reads, and that
    another memory with the same octets there gives the same. -/
structure Reading (β : Type) where
  run : Memory → β
  ranges : Memory → List Extent
  sound : ∀ m m', (∀ r ∈ ranges m, ∀ i < r.len, m' (r.off + i) = m (r.off + i)) →
    run m' = run m ∧ ranges m' = ranges m

namespace Reading

variable {β γ : Type}

/-- Reads nothing. -/
protected def pure (b : β) : Reading β where
  run := fun _ => b
  ranges := fun _ => []
  sound := fun _ _ _ => ⟨rfl, rfl⟩

/-- Reads what the first does and then what the second does. -/
protected def bind (x : Reading β) (f : β → Reading γ) : Reading γ where
  run := fun m => (f (x.run m)).run m
  ranges := fun m => x.ranges m ++ (f (x.run m)).ranges m
  sound := by
    intro m m' h
    obtain ⟨hrun, hranges⟩ := x.sound m m' fun r hr => h r (List.mem_append_left _ hr)
    obtain ⟨hrun', hranges'⟩ :=
      (f (x.run m)).sound m m' fun r hr => h r (List.mem_append_right _ hr)
    rw [hrun, hranges]
    exact ⟨hrun', congrArg _ hranges'⟩

instance : Monad Reading where
  pure := Reading.pure
  bind := Reading.bind

/-- The octets of a range. -/
def octetsAt (m : Memory) (off len : Nat) : List (BitVec 8) :=
  (List.range len).map fun i => m (off + i)

/-- The word at an address, in network order. -/
def wordAt (m : Memory) (off : Nat) : BitVec 32 :=
  m off ++ m (off + 1) ++ m (off + 2) ++ m (off + 3)

/-- Reads a range. -/
def bytes (off len : Nat) : Reading (List (BitVec 8)) where
  run := fun m => octetsAt m off len
  ranges := fun _ => [⟨off, len⟩]
  sound := by
    intro m m' h
    refine ⟨?_, rfl⟩
    apply List.map_congr_left
    intro i hi
    exact h ⟨off, len⟩ List.mem_cons_self i (List.mem_range.mp hi)

/-- Reads a word. -/
def word (off : Nat) : Reading (BitVec 32) where
  run := fun m => wordAt m off
  ranges := fun _ => [⟨off, 4⟩]
  sound := by
    intro m m' h
    have hsame : ∀ i < 4, m' (off + i) = m (off + i) := h ⟨off, 4⟩ List.mem_cons_self
    refine ⟨?_, rfl⟩
    unfold wordAt
    rw [hsame 1 (by decide), hsame 2 (by decide), hsame 3 (by decide)]
    exact congrArg (· ++ _ ++ _ ++ _) (hsame 0 (by decide))

/-! ### Results -/

section Run

variable (m : Memory)

@[simp] theorem run_pure (b : β) : (pure b : Reading β).run m = b := rfl

@[simp] theorem run_bind (x : Reading β) (f : β → Reading γ) :
    (x >>= f).run m = (f (x.run m)).run m := rfl

@[simp] theorem run_ite (c : Prop) [Decidable c] (x y : Reading β) :
    (if c then x else y).run m = if c then x.run m else y.run m := by
  split_ifs <;> rfl

@[simp] theorem run_bytes_bind (off len : Nat) (f : List (BitVec 8) → Reading γ) :
    (bytes off len >>= f).run m = (f (octetsAt m off len)).run m := rfl

@[simp] theorem run_word_bind (off : Nat) (f : BitVec 32 → Reading γ) :
    (word off >>= f).run m = (f (wordAt m off)).run m := rfl

end Run

/-! ### Staying inside -/

/-- All ranges end at or below a bound; a range without octets is nowhere. -/
def Inside (n : Nat) (x : Reading β) (m : Memory) : Prop :=
  ∀ r ∈ x.ranges m, r.len = 0 ∨ r.off + r.len ≤ n

instance (n : Nat) (x : Reading β) (m : Memory) : Decidable (Inside n x m) :=
  inferInstanceAs (Decidable (∀ r ∈ x.ranges m, _ ∨ _))

section Rules

variable {n : Nat} {m : Memory}

@[simp] theorem inside_pure (b : β) : Inside n (pure b : Reading β) m := by
  intro r hr
  cases hr

@[simp] theorem inside_bind (x : Reading β) (f : β → Reading γ) :
    Inside n (x >>= f) m ↔ Inside n x m ∧ Inside n (f (x.run m)) m :=
  List.forall_mem_append

@[simp] theorem inside_ite (c : Prop) [Decidable c] (x y : Reading β) :
    Inside n (if c then x else y) m ↔ (c → Inside n x m) ∧ (¬ c → Inside n y m) := by
  split_ifs with h <;> simp [h]

@[simp] theorem inside_bytes_bind (off len : Nat) (f : List (BitVec 8) → Reading γ) :
    Inside n (bytes off len >>= f) m ↔
      (len = 0 ∨ off + len ≤ n) ∧ Inside n (f (octetsAt m off len)) m :=
  (inside_bind _ _).trans (and_congr_left' List.forall_mem_singleton)

@[simp] theorem inside_word_bind (off : Nat) (f : BitVec 32 → Reading γ) :
    Inside n (word off >>= f) m ↔ off + 4 ≤ n ∧ Inside n (f (wordAt m off)) m := by
  refine (inside_bind _ _).trans (and_congr_left' (List.forall_mem_singleton.trans ?_))
  simp

end Rules

end Reading
