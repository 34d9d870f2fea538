import Mathlib

/-!
# Circular Arrays

A queue kept in an array of slots that is used round and round. An empty slot
holds `none`. One index says where the next item is taken and another where
the next one is put; there is no count.

`Holds` says what the array stands for. It is a statement about every slot:
the one at distance `i` from the read index holds item number `i` of the
queue, and is empty if there is no such item. The write index is then where
the items end, which is the read index again when the array is full.

The array may be made larger by empty slots at its end. That keeps the queue
only if the array was full and is read from its start: `holds_grow` has this
case, and there is no lemma for the others.

## Main definitions

* `Holds`: The slots hold a queue of items.
* `items`: The occupied slots, from the read index on.

## Theorems

* `holds_put`: Putting an item into an empty slot.
* `holds_take`: Taking the item at the read index.
* `holds_grow`: Enlarging a full array that is read from its start.
* `Holds.items_eq`: The queue can be read off the slots.
-/

namespace Ring

open List

variable {β : Type}

/-- The slots, with a read and a write index, hold a queue of items. -/
structure Holds (slots : List (Option β)) (rd wr : Nat) (items : List β) : Prop where
  le : items.length ≤ slots.length
  rd_lt : slots ≠ [] → rd < slots.length
  rd_nil : slots = [] → rd = 0
  wr_eq : wr = (rd + items.length) % slots.length
  cell : ∀ i < slots.length, slots[(rd + i) % slots.length]? = some items[i]?

/-- Distances from one slot that are less than the size are told apart. -/
theorem add_mod_inj {n rd i j : Nat} (hi : i < n) (hj : j < n)
    (h : (rd + i) % n = (rd + j) % n) : i = j :=
  Nat.ModEq.eq_of_lt_of_lt (Nat.ModEq.add_left_cancel' rd h) hi hj

/-- An array that is not there holds nothing. -/
theorem holds_nil : Holds ([] : List (Option β)) 0 0 [] where
  le := le_rfl
  rd_lt := fun h => absurd rfl h
  rd_nil := fun _ => rfl
  wr_eq := rfl
  cell := by simp

/-- An array of empty slots holds nothing. -/
theorem holds_replicate (n : Nat) : Holds (List.replicate n (none : Option β)) 0 0 [] where
  le := by simp
  rd_lt := by
    intro h
    rw [length_replicate]
    exact pos_of_ne_zero (fun hn => h (by rw [hn]; rfl))
  rd_nil := fun _ => rfl
  wr_eq := by simp
  cell := by
    intro i hi
    rw [length_replicate] at hi ⊢
    rw [zero_add, Nat.mod_eq_of_lt hi, List.getElem?_replicate, if_pos hi]
    rfl

section

variable {slots : List (Option β)} {rd wr : Nat} {items : List β}

section

variable (h : Holds slots rd wr items)

include h

/-- The slot at the read index holds the first item, if there is one. -/
theorem Holds.first (hne : slots ≠ []) : slots[rd]? = some items[0]? := by
  have hlt := h.rd_lt hne
  have hcell := h.cell 0 (by omega)
  rwa [add_zero, Nat.mod_eq_of_lt hlt] at hcell

/-- The write index is one of a slot. -/
theorem Holds.wr_lt (hne : slots ≠ []) : wr < slots.length := by
  rw [h.wr_eq]
  exact Nat.mod_lt _ (length_pos_of_ne_nil hne)

/-- If the slot at the write index is empty, there is room. -/
theorem Holds.room (hfree : slots[wr]? = some none) : items.length < slots.length := by
  have hne : slots ≠ [] := by
    intro hnil
    rw [hnil] at hfree
    cases hfree
  have hlt := h.rd_lt hne
  by_contra hfull
  -- A full array is written where it is read, and that slot is not empty.
  have hlen : items.length = slots.length := le_antisymm h.le (not_lt.mp hfull)
  have hwr : wr = rd := by
    rw [h.wr_eq, hlen, Nat.add_mod_right, Nat.mod_eq_of_lt hlt]
  rw [hwr, h.first hne] at hfree
  have hzero : items[0]? = none := Option.some.inj hfree
  rw [List.getElem?_eq_none_iff] at hzero
  omega

/-- If there is room, the slot at the write index is empty. -/
theorem Holds.free (hroom : items.length < slots.length) : slots[wr]? = some none := by
  have hcell := h.cell items.length hroom
  rw [← h.wr_eq] at hcell
  rw [hcell, List.getElem?_eq_none (le_refl _)]

/-- Putting an item into the empty slot at the write index. -/
theorem holds_put (hfree : slots[wr]? = some none) (x : β) :
    Holds (slots.set wr (some x)) rd ((1 + wr) % slots.length) (items ++ [x]) := by
  have hroom := h.room hfree
  have hne : slots ≠ [] := by
    intro hnil
    rw [hnil] at hroom
    exact absurd hroom (Nat.not_lt_zero _)
  have hwr := h.wr_lt hne
  refine ⟨?_, ?_, ?_, ?_, ?_⟩
  · rw [length_set, length_append, length_singleton]
    omega
  · intro _
    rw [length_set]
    exact h.rd_lt hne
  · intro hnil
    exact absurd ((set_eq_nil_iff _ _).mp hnil) hne
  · rw [length_set, length_append, length_singleton, h.wr_eq, Nat.add_mod_mod]
    congr 1
    omega
  · intro i hi
    rw [length_set] at hi ⊢
    rw [List.getElem?_set]
    by_cases heq : i = items.length
    · -- The slot that was written.
      rw [if_pos (by rw [h.wr_eq, heq]), if_pos hwr, heq,
        List.getElem?_append_right (Nat.le_refl _), Nat.sub_self]
      rfl
    · have hother : wr ≠ (rd + i) % slots.length := by
        intro hsame
        rw [h.wr_eq] at hsame
        exact heq (add_mod_inj hroom hi hsame).symm
      rw [if_neg hother, h.cell i hi]
      by_cases hlt : i < items.length
      · rw [List.getElem?_append_left hlt]
      · rw [List.getElem?_eq_none (by omega), List.getElem?_eq_none]
        rw [length_append, length_singleton]
        omega

end

/-- Taking the item at the read index. -/
theorem holds_take {x : β} (h : Holds slots rd wr (x :: items)) :
    slots[rd]? = some (some x) ∧
      Holds (slots.set rd none) ((1 + rd) % slots.length) wr items := by
  have hle := h.le
  rw [length_cons] at hle
  have hne : slots ≠ [] := by
    intro hnil
    rw [hnil] at hle
    exact absurd hle (Nat.not_succ_le_zero _)
  have hlt := h.rd_lt hne
  refine ⟨h.first hne, ?_, ?_, ?_, ?_, ?_⟩
  · rw [length_set]
    omega
  · intro _
    rw [length_set]
    exact Nat.mod_lt _ (by omega)
  · intro hnil
    exact absurd ((set_eq_nil_iff _ _).mp hnil) hne
  · rw [length_set, Nat.mod_add_mod, h.wr_eq, length_cons]
    congr 1
    omega
  · intro i hi
    rw [length_set] at hi ⊢
    rw [Nat.mod_add_mod, List.getElem?_set]
    have hshift : 1 + rd + i = rd + (i + 1) := by omega
    rw [hshift]
    by_cases hlast : i + 1 = slots.length
    · -- All the way round is the slot that was emptied.
      rw [hlast, Nat.add_mod_right, Nat.mod_eq_of_lt hlt, if_pos rfl, if_pos hlt,
        List.getElem?_eq_none (by omega)]
    · have hother : rd ≠ (rd + (i + 1)) % slots.length := by
        intro hsame
        have hzero : (rd + 0) % slots.length = (rd + (i + 1)) % slots.length := by
          rw [add_zero, Nat.mod_eq_of_lt hlt]
          exact hsame
        exact absurd (add_mod_inj (by omega) (by omega) hzero) (by omega)
      rw [if_neg hother, h.cell (i + 1) (by omega), List.getElem?_cons_succ]

/-- Enlarging an array that is full and is written, hence read, at its start,
    or one that is not there yet. -/
theorem holds_grow (h : Holds slots rd 0 items) (hfull : slots[0]? ≠ some none) {k : Nat}
    (hk : 0 < k) : Holds (slots ++ List.replicate k none) rd slots.length items := by
  have hlen : items.length = slots.length := by
    by_contra hne
    exact hfull (h.free (lt_of_le_of_ne h.le hne))
  have hrd : rd = 0 := by
    by_cases hnil : slots = []
    · exact h.rd_nil hnil
    · have hwr := h.wr_eq
      rw [hlen, Nat.add_mod_right, Nat.mod_eq_of_lt (h.rd_lt hnil)] at hwr
      exact hwr.symm
  subst hrd
  have hsize : (slots ++ List.replicate k (none : Option β)).length = slots.length + k := by
    rw [length_append, length_replicate]
  refine ⟨by omega, fun _ => by omega, fun _ => rfl, ?_, ?_⟩
  · rw [zero_add, hlen, Nat.mod_eq_of_lt (by omega)]
  · intro i hi
    rw [zero_add, Nat.mod_eq_of_lt hi]
    by_cases hold : i < slots.length
    · have hcell := h.cell i hold
      rw [zero_add, Nat.mod_eq_of_lt hold] at hcell
      rw [List.getElem?_append_left hold, hcell]
    · rw [List.getElem?_append_right (by omega), List.getElem?_replicate, if_pos (by omega),
        List.getElem?_eq_none (by omega)]

/-- What stands in the slots, from the read index on and round to it. -/
theorem Holds.rotate_eq (h : Holds slots rd wr items) :
    slots.rotate rd =
      items.map some ++ List.replicate (slots.length - items.length) none := by
  have hle := h.le
  apply ext_getElem?
  intro i
  by_cases hi : i < slots.length
  · rw [List.getElem?_rotate hi, add_comm, h.cell i hi]
    by_cases hlt : i < items.length
    · rw [List.getElem?_append_left (by rwa [length_map]), List.getElem?_map,
        List.getElem?_eq_getElem hlt]
      rfl
    · rw [List.getElem?_append_right (by rw [length_map]; omega), length_map,
        List.getElem?_replicate, if_pos (by omega), List.getElem?_eq_none (by omega)]
  · rw [List.getElem?_eq_none (by rw [length_rotate]; omega), List.getElem?_eq_none]
    rw [length_append, length_map, length_replicate]
    omega

end

/-- The occupied slots, from the read index on. -/
def items (slots : List (Option β)) (rd : Nat) : List β := (slots.rotate rd).filterMap id

/-- The queue can be read off the slots. -/
theorem Holds.items_eq {slots : List (Option β)} {rd wr : Nat} {queue : List β}
    (h : Holds slots rd wr queue) : items slots rd = queue := by
  unfold items
  rw [h.rotate_eq]
  simp

/-- What is in the queue is in some slot. -/
theorem mem_items (slots : List (Option β)) (rd : Nat) {x : β} :
    x ∈ items slots rd ↔ some x ∈ slots := by
  unfold items
  rw [mem_filterMap]
  constructor
  · rintro ⟨o, ho, hx⟩
    rw [← hx]
    exact mem_rotate.mp ho
  · intro hx
    exact ⟨some x, mem_rotate.mpr hx, rfl⟩

/-- The queue is as long as there are occupied slots. -/
theorem length_items (slots : List (Option β)) (rd : Nat) :
    (items slots rd).length = slots.countP Option.isSome := by
  unfold items
  rw [length_filterMap_eq_countP]
  exact (rotate_perm slots rd).countP_eq _

end Ring
