import Mathlib

/-!
# Chained Tables

A table with a chain of members for each bucket, where a new member goes to
the head of a chain and a member is found and removed by walking down the
chain. A hash table is one, and so are lists of members by owner, where a
member need not have an owner.

A table is an index of a list of members when every chain has the members
whose bucket it is, each as often as the list and in any order. `Indexes`
says so with one permutation per bucket, so that what holds of the list
carries over to the chains. Where members are linked to the head of the list
as well and never moved, the chains have them in the order of the list, and a
search of one chain finds what a search of the list finds; `InOrder` is for
such tables.

The bucket of a member may depend on what the rest of the program has stored
with it, so it is a parameter, and `update_field` is for what is stored
without a change to it.

## Main definitions

* `link`, `unlink`: A member is put on a chain and taken off it.
* `rebuild`: The table of a list of members.
* `Indexes`: The table has the members of a list, each in its bucket.
* `InOrder`: The chains are parts of the list.

## Theorems

* `Indexes.link`, `Indexes.unlink`: The operations, on the table and the list.
* `indexes_rebuild`: The table of a list is an index of it.
* `InOrder.find?_eq`: A search of one chain is a search of the list.
-/

namespace Chained

open Function List

variable {α κ : Type} [DecidableEq κ]

/-- A member is put at the head of a chain. -/
def link (t : κ → List α) (b : κ) (x : α) : κ → List α :=
  update t b (x :: t b)

/-- A member is taken off a chain. -/
def unlink [DecidableEq α] (t : κ → List α) (b : κ) (x : α) : κ → List α :=
  update t b ((t b).erase x)

/-- The members of a list are linked one after the other. -/
def rebuild (bucket : α → κ) (t : κ → List α) (xs : List α) : κ → List α :=
  xs.foldl (fun t x => link t (bucket x) x) t

/-- Every chain has the members of the list whose bucket it is. -/
def Indexes (t : κ → List α) (bucket : α → Option κ) (xs : List α) : Prop :=
  ∀ b, (t b).Perm (xs.filter fun x => bucket x = some b)

/-- Every chain is the part of the list whose bucket it is. -/
def InOrder (t : κ → List α) (bucket : α → κ) (xs : List α) : Prop :=
  ∀ b, t b = xs.filter fun x => bucket x = b

/-- What is stored with a member does not change a field that it leaves alone. -/
theorem update_field {ι β γ : Type} [DecidableEq ι] (field : β → γ) {mem : ι → β} {x : ι} {v : β}
    (hfield : field v = field (mem x)) (y : ι) : field (update mem x v y) = field (mem y) := by
  by_cases hy : y = x
  · rw [hy, update_self, hfield]
  · rw [update_of_ne hy]

section Off

variable {ι β : Type} [DecidableEq ι] {mem : ι → β} {x : ι} {xs : List ι} (hx : x ∉ xs) {v : β}

include hx

/-- What is stored with a member does not change the others. -/
theorem update_off : ∀ y ∈ xs, update mem x v y = mem y := by
  intro y hy
  have hne : y ≠ x := fun heq => hx (heq ▸ hy)
  exact update_of_ne hne _ _

theorem countP_off (test : β → Bool) :
    xs.countP (fun y => test (update mem x v y)) = xs.countP fun y => test (mem y) := by
  apply countP_congr
  intro y hy
  rw [update_off hx y hy]

end Off

variable {t : κ → List α} {xs ys : List α} {x : α} {b : κ}

/-! ### Chains in any order -/

section Indexes

variable {bucket : α → Option κ}

theorem indexes_nil (bucket : α → Option κ) : Indexes (fun _ => []) bucket [] := fun _ => .nil

variable (h : Indexes t bucket xs)

include h

/-- The order of the list does not matter. -/
theorem Indexes.perm (hperm : xs.Perm ys) : Indexes t bucket ys :=
  fun b => (h b).trans (hperm.filter _)

/-- Only the buckets of the members matter. -/
theorem Indexes.congr {bucket' : α → Option κ}
    (hsame : ∀ x ∈ xs, bucket' x = bucket x) : Indexes t bucket' xs := by
  intro b
  have hfilter : xs.filter (fun x => decide (bucket' x = some b)) =
      xs.filter fun x => decide (bucket x = some b) := by
    apply filter_congr
    intro x hx
    rw [hsame x hx]
  rw [hfilter]
  exact h b

/-- A new member goes to the chain of its bucket. -/
theorem Indexes.link (hb : bucket x = some b) : Indexes (link t b x) bucket (x :: xs) := by
  intro c
  unfold Chained.link
  by_cases hc : c = b
  · subst hc
    rw [update_self, filter_cons_of_pos (by simpa using hb)]
    exact (h _).cons x
  · have hne : bucket x ≠ some c := fun heq => hc (Option.some.inj (heq.symm.trans hb))
    rw [update_of_ne hc, filter_cons_of_neg (by simpa using hne)]
    exact h c

/-- A member without a bucket goes nowhere. -/
theorem Indexes.cons_none (hb : bucket x = none) : Indexes t bucket (x :: xs) := by
  intro c
  rw [filter_cons_of_neg (by simp [hb])]
  exact h c

/-- A member that goes is taken off the chain of its bucket. -/
theorem Indexes.unlink [DecidableEq α] (hb : bucket x = some b) :
    Indexes (unlink t b x) bucket (xs.erase x) := by
  intro c
  unfold Chained.unlink
  by_cases hc : c = b
  · subst hc
    rw [update_self, ← erase_filter]
    exact (h _).erase x
  · have hout : x ∉ xs.filter fun y => decide (bucket y = some c) := by
      simp [hb, Ne.symm hc]
    rw [update_of_ne hc, ← erase_filter, erase_of_not_mem hout]
    exact h c

/-- A member without a bucket goes from the list alone. -/
theorem Indexes.erase_none [DecidableEq α] (hb : bucket x = none) :
    Indexes t bucket (xs.erase x) := by
  intro c
  have hout : x ∉ xs.filter fun y => decide (bucket y = some c) := by
    simp [hb]
  rw [← erase_filter, erase_of_not_mem hout]
  exact h c

/-- A member is on the chain of its bucket and on no other. -/
theorem Indexes.mem_iff : x ∈ t b ↔ x ∈ xs ∧ bucket x = some b := by
  rw [(h b).mem_iff, mem_filter, decide_eq_true_eq]

/-- A search that can only succeed in one bucket finds nothing on its chain
    exactly if there is nothing to find. -/
theorem Indexes.find?_eq_none {test : α → Bool}
    (htest : ∀ x ∈ xs, test x = true → bucket x = some b) :
    (t b).find? test = none ↔ ∀ x ∈ xs, ¬test x = true := by
  rw [List.find?_eq_none]
  constructor
  · intro hnone x hx hpass
    exact hnone x (h.mem_iff.mpr ⟨hx, htest x hx hpass⟩) hpass
  · intro hnone x hx
    exact hnone x (h.mem_iff.mp hx).1

theorem Indexes.find?_eq_some {test : α → Bool}
    (hfind : (t b).find? test = some x) : x ∈ xs ∧ test x = true :=
  ⟨(h.mem_iff.mp (mem_of_find?_eq_some hfind)).1, List.find?_some hfind⟩

end Indexes

/-! ### Tables where every member has a bucket -/

section Total

variable {bucket : α → κ}

/-- Every chain, for a table where every member has a bucket. -/
theorem Indexes.chain (h : Indexes t (fun x => some (bucket x)) xs) (b : κ) :
    (t b).Perm (xs.filter fun x => bucket x = b) := by
  have hchain := h b
  simp only [Option.some.injEq] at hchain
  exact hchain

/-- Linking a list of members to a table. -/
theorem Indexes.rebuild (h : Indexes t (fun x => some (bucket x)) ys) (xs : List α) :
    Indexes (rebuild bucket t xs) (fun x => some (bucket x)) (xs ++ ys) := by
  induction xs generalizing t ys with
  | nil => exact h
  | cons x xs ih =>
    have htail : Indexes (Chained.rebuild bucket (Chained.link t (bucket x) x) xs)
        (fun x => some (bucket x)) (xs ++ x :: ys) := ih (h.link rfl)
    exact htail.perm perm_middle

theorem indexes_rebuild (bucket : α → κ) (xs : List α) :
    Indexes (rebuild bucket (fun _ => []) xs) (fun x => some (bucket x)) xs := by
  have hall := (indexes_nil fun x => some (bucket x)).rebuild xs
  rwa [append_nil] at hall

/-! ### Chains in the order of the list -/

theorem inOrder_nil (bucket : α → κ) : InOrder (fun _ => []) bucket [] := fun _ => rfl

variable (h : InOrder t bucket xs)

include h

theorem InOrder.congr {bucket' : α → κ}
    (hsame : ∀ x ∈ xs, bucket' x = bucket x) : InOrder t bucket' xs := by
  intro b
  rw [h b]
  apply filter_congr
  intro x hx
  rw [hsame x hx]

/-- A new member goes to the head of its chain and of the list. -/
theorem InOrder.link (x : α) : InOrder (link t (bucket x) x) bucket (x :: xs) := by
  intro c
  unfold Chained.link
  by_cases hc : c = bucket x
  · subst hc
    rw [update_self, filter_cons_of_pos (by simp), h]
  · rw [update_of_ne hc, filter_cons_of_neg (by simpa using Ne.symm hc), h]

theorem InOrder.unlink [DecidableEq α] (x : α) :
    InOrder (unlink t (bucket x) x) bucket (xs.erase x) := by
  intro c
  unfold Chained.unlink
  by_cases hc : c = bucket x
  · subst hc
    rw [update_self, ← erase_filter, h]
  · have hout : x ∉ xs.filter fun y => decide (bucket y = c) := by
      simp [Ne.symm hc]
    rw [update_of_ne hc, ← erase_filter, erase_of_not_mem hout, h]

theorem InOrder.mem_iff : x ∈ t b ↔ x ∈ xs ∧ bucket x = b := by
  rw [h b, mem_filter, decide_eq_true_eq]

/-- A search that can only succeed in one bucket finds the same on its chain and on the list. -/
theorem InOrder.find?_eq {test : α → Bool}
    (htest : ∀ x ∈ xs, test x = true → bucket x = b) : (t b).find? test = xs.find? test := by
  rw [h b, List.find?_filter]
  apply List.find?_congr
  intro x hx
  by_cases hpass : test x = true
  · simp [hpass, htest x hx hpass]
  · simp [hpass]

end Total

end Chained
