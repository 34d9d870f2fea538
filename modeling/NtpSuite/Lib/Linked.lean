import Mathlib

/-!
# Linked Lists in Memory

Lists that exist only as pointers: one to the first node, and in each node
one to the next.

`Leads link h xs` says that the pointer `h` leads through the nodes `xs` to
the end. There may be other nodes, and other lists through the same links;
`leads_update` is the frame rule for them.

Code that changes such a list does so through the address of a pointer rather
than the pointer. `Loc` is such an address: that of the pointer to the first
node, or that of the link of a node. `after ks` is the address at which the
nodes after `ks` begin, and `Leads.splice` says what writing to it does. To
append, to remove and to replace are all cases of that.

## Main definitions

* `Leads`: A pointer leads through a list of nodes.
* `Loc`, `read`, `write`: Addresses of pointers.
* `after`: The address at which the rest of a list begins.
* `tailLoc`: The address of the pointer to the last node.

## Theorems

* `leads_update`, `leads_write`: Other nodes do not matter.
* `Leads.read_after`: What is found where the rest of a list begins.
* `Leads.splice`: The rest of a list is replaced.
-/

namespace Linked

open Function List

variable {ι : Type} {link : ι → Option ι} {h v : Option ι} {ks xs ys : List ι} {p x : ι}

/-- The pointer leads through the nodes to the end. -/
def Leads (link : ι → Option ι) : Option ι → List ι → Prop
  | h, [] => h = none
  | h, x :: xs => h = some x ∧ Leads link (link x) xs

/-- The address of a pointer. -/
inductive Loc (ι : Type) where
  | head
  | link (p : ι)
deriving DecidableEq, Repr

/-- The pointer at an address. -/
def read (h : Option ι) (link : ι → Option ι) : Loc ι → Option ι
  | .head => h
  | .link p => link p

/-- Where the rest of a list begins, after some nodes of it. -/
def after (ks : List ι) : Loc ι := ks.getLast?.elim .head .link

/-- The address of the pointer to the last node. -/
def tailLoc (xs : List ι) : Option (Loc ι) :=
  if xs.isEmpty then none else some (after xs.dropLast)

@[simp] theorem leads_nil : Leads link h [] ↔ h = none := Iff.rfl

@[simp] theorem leads_cons : Leads link h (x :: xs) ↔ h = some x ∧ Leads link (link x) xs := Iff.rfl

@[simp] theorem after_nil : after ([] : List ι) = .head := rfl

@[simp] theorem after_append (ks : List ι) (x : ι) : after (ks ++ [x]) = .link x := by
  simp [after]

@[simp] theorem tailLoc_nil : tailLoc ([] : List ι) = none := rfl

@[simp] theorem tailLoc_append (ks : List ι) (x : ι) : tailLoc (ks ++ [x]) = some (after ks) := by
  simp [tailLoc]

@[simp] theorem tailLoc_append_two (ks : List ι) (x y : ι) :
    tailLoc (ks ++ [x, y]) = some (.link x) := by
  rw [append_cons, tailLoc_append, after_append]

@[simp] theorem tailLoc_eq_none : tailLoc xs = none ↔ xs = [] := by
  simp [tailLoc]

@[simp] theorem after_eq_head : after ks = .head ↔ ks = [] := by
  cases ks using List.reverseRecOn with
  | nil | append_singleton ks k _ => simp

/-- The pointer is null exactly if the list is empty. -/
theorem Leads.head_eq (hl : Leads link h xs) : h = xs.head? := by
  cases xs with
  | nil => exact hl
  | cons x xs => exact hl.1

/-- What is found where the rest of a list begins. -/
theorem Leads.rest (hl : Leads link h (ks ++ xs)) : Leads link (read h link (after ks)) xs := by
  induction ks using List.reverseRecOn generalizing xs with
  | nil => exact hl
  | append_singleton ks k ih =>
    have hrest : Leads link (read h link (after ks)) (k :: xs) := ih (by simpa using hl)
    rw [after_append]
    exact hrest.2

/-- The first node of the rest. -/
theorem Leads.read_after (hl : Leads link h (ks ++ xs)) :
    read h link (after ks) = xs.head? := hl.rest.head_eq

/-- The link of a node in the list. -/
theorem Leads.link_eq (hl : Leads link h (ks ++ x :: xs)) : link x = xs.head? :=
  hl.rest.2.head_eq

variable [DecidableEq ι]

/-- Write a pointer to an address. -/
def write (h : Option ι) (link : ι → Option ι) (v : Option ι) : Loc ι → Option ι × (ι → Option ι)
  | .head => (v, link)
  | .link p => (h, update link p v)

/-- Other nodes do not matter. -/
theorem leads_update (hp : p ∉ xs) : Leads (update link p v) h xs ↔ Leads link h xs := by
  induction xs generalizing h with
  | nil => rfl
  | cons x xs ih =>
    simp only [mem_cons, not_or] at hp
    rw [leads_cons, leads_cons, update_of_ne (Ne.symm hp.1), ih hp.2]

/-- Another list does not notice what is written to this one. -/
theorem leads_write {g : Option ι} {fs : List ι} (hdisj : ∀ k ∈ ks, k ∉ fs) :
    Leads (write h link v (after ks)).2 g fs ↔ Leads link g fs := by
  cases ks using List.reverseRecOn with
  | nil => rfl
  | append_singleton ks k _ =>
    rw [after_append]
    exact leads_update (hdisj k (by simp))

/-- What comes after a node is replaced. -/
theorem Leads.update_mid (hl : Leads link h (ks ++ x :: xs)) (hy : Leads link v ys)
    (hnodup : (ks ++ x :: ys).Nodup) : Leads (update link x v) h (ks ++ x :: ys) := by
  induction ks generalizing h with
  | nil =>
    simp only [nil_append, nodup_cons] at hnodup
    refine ⟨hl.1, ?_⟩
    rw [update_self]
    exact (leads_update hnodup.1).mpr hy
  | cons k ks ih =>
    rw [cons_append, nodup_cons] at hnodup
    refine ⟨hl.1, ?_⟩
    have hne : k ≠ x := by
      rintro rfl
      exact hnodup.1 (by simp)
    rw [update_of_ne hne]
    exact ih hl.2 hnodup.2

/-- The rest of a list is replaced. -/
theorem Leads.splice (hl : Leads link h (ks ++ xs)) (hy : Leads link v ys)
    (hnodup : (ks ++ ys).Nodup) :
    Leads (write h link v (after ks)).2 (write h link v (after ks)).1 (ks ++ ys) := by
  cases ks using List.reverseRecOn with
  | nil => exact hy
  | append_singleton ks k _ =>
    rw [after_append]
    rw [append_assoc] at hl hnodup ⊢
    exact hl.update_mid hy hnodup

end Linked
