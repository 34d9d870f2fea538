import NtpSuite.Theory.Touch

/-!
# The Table of Associations

What the operations on the table do to the associations in it. An association
is found again where it was written, and not found where it was taken off.

A property of single associations that holds of all of them holds of all of
them after an operation if it holds of the association the operation puts in.
This is what an invariant of associations has to be checked for; nothing in
it depends on the property.

## Main definitions

* `Everywhere`: A property of all associations.

## Theorems

* `peer?_setPeer`, `peer?_unpeer`: Looking up what was written.
* `Acts.peer?`: Looking up after a change to all associations.
* `Everywhere.setPeer`, `Everywhere.modifyPeer`, `Everywhere.unpeer`: The
  operations.
* `Everywhere.acts`: A relation between associations, for all of them.
-/

namespace NtpSuite

open List

variable {α : Type} [Field α]

variable {p : Peer α} {ptr : Nat}

theorem peer?_setPeer {s : Sys α} {q : Peer α} (h : ∃ p ∈ s.peer_list, p.ptr = q.ptr) :
    (s.setPeer q).peer? q.ptr = some q := by
  rcases hfind : (s.setPeer q).peer? q.ptr with _ | r
  · obtain ⟨p, hp, hptr⟩ := h
    have hq : q ∈ (s.setPeer q).peer_list := mem_map.mpr ⟨p, hp, if_pos hptr⟩
    exact absurd (beq_self_eq_true q.ptr) (List.find?_eq_none.mp hfind q hq)
  · have hptr : r.ptr = q.ptr := by simpa using List.find?_some hfind
    obtain ⟨p, -, hpr⟩ := mem_map.mp (mem_of_find?_eq_some hfind)
    -- What is found is the one written, or another at the same address.
    by_cases hp : p.ptr = q.ptr
    · rw [← hpr, if_pos hp]
    · rw [if_neg hp] at hpr
      exact absurd (hpr ▸ hptr) hp

theorem peer?_unpeer (s : Sys α) (ptr : Nat) : (unpeer s ptr).peer? ptr = none := by
  rw [Sys.peer?, List.find?_eq_none]
  intro p hp
  have hne : p.ptr ≠ ptr := by simpa using (mem_filter.mp hp).2
  simpa using hne

theorem mem_of_peer? {s : Sys α} (h : s.peer? ptr = some p) : p ∈ s.peer_list ∧ p.ptr = ptr :=
  ⟨mem_of_find?_eq_some h, by simpa using List.find?_some h⟩

/-- What happens to the association found at an address, if none of them moves
    to another address. -/
theorem Acts.peer? {R : Peer α → Peer α → Prop} (hR : ∀ p q, R p q → q.ptr = p.ptr) {s t : Sys α}
    (h : Acts R s t) (hp : s.peer? ptr = some p) : ∃ q, t.peer? ptr = some q ∧ R p q := by
  obtain ⟨f, hf, hfR⟩ := h.peers
  refine ⟨f p, ?_, hfR p⟩
  have hsame : (fun q : Peer α => q.ptr == ptr) ∘ f = fun q => q.ptr == ptr := by
    funext q
    rw [Function.comp_apply, hR q (f q) (hfR q)]
  rw [Sys.peer?, hf, List.find?_map, hsame]
  exact congrArg (Option.map f) hp

theorem peer?_modifyPeer {s : Sys α} {f : Peer α → Peer α} (hf : ∀ q, (f q).ptr = q.ptr)
    (hp : s.peer? ptr = some p) : (s.modifyPeer ptr f).peer? ptr = some (f p) := by
  have hsame : (fun q : Peer α => q.ptr == ptr) ∘ (fun q => if q.ptr = ptr then f q else q)
      = fun q => q.ptr == ptr := by
    funext q
    rw [Function.comp_apply]
    split
    · rw [hf q]
    · rfl
  rw [Sys.peer?, Sys.modifyPeer, List.find?_map, hsame]
  rw [Sys.peer?] at hp
  rw [hp, Option.map_some, if_pos (mem_of_peer? hp).2]

/-- A property of all associations. -/
def Everywhere (P : Peer α → Prop) (s : Sys α) : Prop := ∀ p ∈ s.peer_list, P p

namespace Everywhere

variable {P : Peer α → Prop} {s t : Sys α}

section

variable (h : Everywhere P s)

include h

theorem of_list (hl : t.peer_list = s.peer_list) : Everywhere P t := by
  intro p hp
  rw [hl] at hp
  exact h p hp

theorem setPeer {q : Peer α} (hq : P q) : Everywhere P (s.setPeer q) := by
  intro p hp
  obtain ⟨r, hr, rfl⟩ := mem_map.mp hp
  refine iteInduction (fun _ => hq) fun hptr => ?_
  exact h r hr

theorem modifyPeer (ptr : Nat) {f : Peer α → Peer α}
    (hf : ∀ p, P p → P (f p)) : Everywhere P (s.modifyPeer ptr f) := by
  intro p hp
  obtain ⟨r, hr, rfl⟩ := mem_map.mp hp
  refine iteInduction (fun _ => hf r (h r hr)) fun hptr => ?_
  exact h r hr

theorem unpeer (ptr : Nat) : Everywhere P (unpeer s ptr) := by
  intro p hp
  exact h p (mem_filter.mp hp).1

theorem peer? (hp : s.peer? ptr = some p) : P p :=
  h p (mem_of_peer? hp).1

theorem reload (hp : P p) : P (s.reload p) := by
  rw [Sys.reload]
  rcases hfind : s.peer? p.ptr with _ | q
  · exact hp
  · exact h.peer? hfind

theorem acts {R : Peer α → Peer α → Prop} (hR : ∀ p q, P p → R p q → P q)
    (hacts : Acts R s t) : Everywhere P t := by
  obtain ⟨f, hf, hfR⟩ := hacts.peers
  intro p hp
  rw [hf] at hp
  obtain ⟨r, hr, rfl⟩ := mem_map.mp hp
  exact hR r (f r) (h r hr) (hfR r)

end

end Everywhere

end NtpSuite
