import Mathlib

/-!
# Chains of Hashes

Keys that are hashes of one another are used in the reverse of the order they
are made in. A receiver that has the end of the chain, or a key that was used
before, knows a new key by hashing it until it comes to one of the two, and
whoever has seen keys cannot make the next.

The receiver limits how often it hashes: it begins with the number of the last
key, takes one off for each key it hears and one for each hash, and looks no
further than what is left. Keys that get lost cost the hashes they would have
cost had they been heard, so any of them may get lost. `Knows` is the invariant
behind it: what is left is enough for all keys that are still to come.

## Main definitions

* `Receiver`: What a receiver knows.
* `search`: The search for a known key among the hashes of a new one.
* `Receiver.hear`: A key is heard.
* `Knows`: The receiver knows a key of the chain, and has hashes enough left.

## Theorems

* `search_iff`: When the search ends well.
* `Knows.hear`: A key further down the chain is accepted.
-/

namespace HashChain

variable {κ : Type} [DecidableEq κ]

/-- The last key heard, the end of the chain, and the number of hashes left. -/
structure Receiver (κ : Type) where
  last : κ
  anchor : κ
  left : Int
deriving DecidableEq, Repr

/-- The key is known. -/
def Receiver.Has (r : Receiver κ) (k : κ) : Prop := k = r.last ∨ k = r.anchor

instance (r : Receiver κ) (k : κ) : Decidable (r.Has k) := inferInstanceAs (Decidable (_ ∨ _))

/-- A key that is heard costs one. -/
def Receiver.tick (r : Receiver κ) : Receiver κ :=
  { r with left := if r.left > 0 then r.left - 1 else r.left }

/-- The search: the number of the hash that is known, or `none` if what is left does not reach. -/
def search (h : κ → κ) (r : Receiver κ) : Nat → Nat → κ → Option Nat
  | 0, _, _ => none
  | fuel + 1, i, k =>
    if r.Has k then some i
    else if (i : Int) > r.left then none
    else search h r fuel (i + 1) (h k)

/-- A key is heard: the receiver afterwards and the number of hashes, or `none`
    if the key is not accepted. -/
def Receiver.hear (h : κ → κ) (r : Receiver κ) (k : κ) : Option (Receiver κ × Nat) :=
  (search h r.tick (r.tick.left.toNat + 2) 0 (h k)).map fun (i : Nat) =>
    ({ r.tick with last := k, left := r.tick.left - i }, i)

variable {h : κ → κ} {r : Receiver κ}

/-- The hash the search ends at is known, and the search has gone no further than what is left. -/
theorem search_sound {fuel i n : Nat} {k : κ} (hs : search h r fuel i k = some n) :
    ∃ d, n = i + d ∧ r.Has (h^[d] k) ∧ (d = 0 ∨ (n : Int) ≤ r.left + 1) := by
  induction fuel generalizing i k with
  | zero => cases hs
  | succ fuel ih =>
    unfold search at hs
    split_ifs at hs with hk hleft
    · cases hs
      exact ⟨0, rfl, hk, .inl rfl⟩
    · obtain ⟨d, hn, hd, hbound⟩ := ih hs
      refine ⟨d + 1, by omega, hd, .inr ?_⟩
      omega

/-- The search does not miss a known hash that what is left reaches. -/
theorem search_complete {fuel i d : Nat} {k : κ} (hfuel : r.left.toNat + 2 = fuel + i)
    (hi : i = 0 ∨ (i : Int) ≤ r.left + 1) (hd : r.Has (h^[d] k))
    (hbound : d = 0 ∨ ((i + d : Nat) : Int) ≤ r.left + 1) :
    ∃ n ≤ i + d, search h r fuel i k = some n := by
  induction fuel generalizing i k d with
  | zero => omega
  | succ fuel ih =>
    unfold search
    by_cases hk : r.Has k
    · exact ⟨i, by omega, if_pos hk⟩
    · rw [if_neg hk]
      cases d with
      | zero => exact absurd hd hk
      | succ d =>
        rw [if_neg (by omega)]
        have hfuel' : r.left.toNat + 2 = fuel + (i + 1) := by omega
        have hd' : r.Has (h^[d] (h k)) := hd
        obtain ⟨n, hn, hs⟩ := ih hfuel' (by omega) hd' (by omega)
        exact ⟨n, by omega, hs⟩

/-- The search ends well if and only if a hash that what is left reaches is known. -/
theorem search_iff {k : κ} :
    (search h r (r.left.toNat + 2) 0 k).isSome = true ↔
      ∃ d : Nat, r.Has (h^[d] k) ∧ (d = 0 ∨ (d : Int) ≤ r.left + 1) := by
  constructor
  · intro hs
    obtain ⟨n, hn⟩ := Option.isSome_iff_exists.mp hs
    obtain ⟨d, rfl, hd, hbound⟩ := search_sound hn
    exact ⟨d, hd, by omega⟩
  · rintro ⟨d, hd, hbound⟩
    obtain ⟨n, -, hn⟩ :=
      search_complete (add_zero (r.left.toNat + 2)).symm (.inl rfl) hd (by omega)
    rw [hn]
    rfl

/-- The receiver knows the key with the number `p` of the chain that begins with
    `k`, and there is a hash left for each key below. -/
structure Knows (h : κ → κ) (k : κ) (r : Receiver κ) (p : Nat) : Prop where
  has : r.Has (h^[p] k)
  left : (p : Int) - 1 ≤ r.left

/-- Any key further down is accepted, whatever was lost on the way. -/
theorem Knows.hear {k : κ} {p j : Nat} (hr : Knows h k r p) (hj : j < p) :
    ∃ r' i, r.hear h (h^[j] k) = some (r', i) ∧ (i : Int) ≤ r.tick.left + 1 ∧ Knows h k r' j := by
  have hleft := hr.left
  have htick : r.tick.left = if r.left > 0 then r.left - 1 else r.left := rfl
  -- The known key is this many hashes away.
  obtain ⟨d, hd⟩ : ∃ d, p = d + (j + 1) := ⟨p - (j + 1), by omega⟩
  have hhas : r.tick.Has (h^[d] (h (h^[j] k))) := by
    rw [← Function.iterate_succ_apply' h j, ← Function.iterate_add_apply, ← hd]
    exact hr.has
  obtain ⟨n, hn, hs⟩ :=
    search_complete (add_zero (r.tick.left.toNat + 2)).symm (.inl rfl) hhas (by omega)
  refine ⟨{ r.tick with last := h^[j] k, left := r.tick.left - n }, n, ?_, ?_, ⟨.inl rfl, ?_⟩⟩
  · unfold Receiver.hear
    rw [hs]
    rfl
  · split_ifs at * <;> omega
  · change (j : Int) - 1 ≤ r.tick.left - n
    rw [htick]
    split_ifs <;> omega

end HashChain
