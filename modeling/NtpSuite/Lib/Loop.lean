import Mathlib

/-!
# Loops

A loop with a body that either goes round again or leaves. The body is a
function from the state at the head of the loop to a state for the next turn
or to a result, so `while` with a `break` and with early returns are all of
this kind.

`Ends` says that the loop leaves with a result: its derivation is a finite
number of turns, so a loop that ends is one that terminates. `Heads` is the
other view, the states the head of the loop is reached in, whether or not the
loop ever leaves. What every turn keeps is known of all of them.

Nothing in `Ends` says how many turns there are. `ends_of_measure` supplies
the number: if every turn lowers a measure, the loop ends. `turns` makes a given
number of turns, so it can be computed, and with more turns than the measure it
is the loop.

## Main definitions

* `Ends`: The loop leaves with a result.
* `Heads`: The states at the head of the loop.
* `turns`: The loop, for so many turns at most.

## Theorems

* `ends_of_measure`: A loop that lowers a measure ends.
* `Heads.invariant`: What every turn keeps holds at the head of every turn.
* `Ends.ne_stay`: A loop that stays where it is does not end.
* `Ends.leaves`: The result is that of the body at the head of the last turn.
* `turns_leaves`: The same for a number of turns.
* `turns_eq`: What the body leaves with at any head is the result.
* `turns_eq_iff`: The two together.
-/

namespace Loop

variable {σ ρ : Type} {body : σ → σ ⊕ ρ}

/-- The loop, entered in a state, leaves with a result. -/
inductive Ends (body : σ → σ ⊕ ρ) : σ → ρ → Prop
  | leave (s : σ) (r : ρ) (h : body s = .inr r) : Ends body s r
  | turn (s t : σ) (r : ρ) (h : body s = .inl t) (rest : Ends body t r) : Ends body s r

/-- The states at the head of the loop when it is entered in a given one. -/
inductive Heads (body : σ → σ ⊕ ρ) (s : σ) : σ → Prop
  | enter : Heads body s s
  | turn (t u : σ) (h : Heads body s t) (ht : body t = .inl u) : Heads body s u

variable {s t : σ} {r : ρ} {n : Nat}

/-- A loop in which every turn keeps an invariant and lowers a measure ends. -/
theorem ends_of_measure {inv : σ → Prop} (μ : σ → Nat)
    (hturn : ∀ s t, inv s → body s = .inl t → inv t ∧ μ t < μ s) (s : σ) (hs : inv s) :
    ∃ r, Ends body s r := by
  induction hn : μ s using Nat.strong_induction_on generalizing s with
  | _ n ih =>
    cases hb : body s with
    | inr r => exact ⟨r, .leave s r hb⟩
    | inl t =>
      obtain ⟨hinv, hlt⟩ := hturn s t hs hb
      obtain ⟨r, hr⟩ := ih (μ t) (hn ▸ hlt) t hinv rfl
      exact ⟨r, .turn s t r hb hr⟩

/-- What every turn keeps holds at the head of every turn. -/
theorem Heads.invariant {inv : σ → Prop} (hturn : ∀ s t, inv s → body s = .inl t → inv t)
    (hs : inv s) (h : Heads body s t) : inv t := by
  induction h with
  | enter => exact hs
  | turn t u _ ht ih => exact hturn t u ih ht

/-- A later head is a head of the loop entered one turn earlier. -/
theorem Heads.head {u : σ} (hs : body s = .inl t) (h : Heads body t u) : Heads body s u := by
  induction h with
  | enter => exact .turn s t .enter hs
  | turn v w _ hv ih => exact .turn v w ih hv

/-- The result of a loop is what its body leaves with at the last head. -/
theorem Ends.leaves (h : Ends body s r) : ∃ t, Heads body s t ∧ body t = .inr r := by
  induction h with
  | leave s r hs => exact ⟨s, .enter, hs⟩
  | turn s t r hs _ ih =>
    obtain ⟨u, hu, hr⟩ := ih
    exact ⟨u, hu.head hs, hr⟩

/-- A loop that stays where it is does not end. -/
theorem Ends.ne_stay (h : Ends body s r) : body s ≠ .inl s := by
  intro hstay
  induction h with
  | leave s r hs => cases hstay.symm.trans hs
  | turn s t r hs _ ih =>
    obtain rfl := Sum.inl.inj (hstay.symm.trans hs)
    exact ih hstay

/-- The loop, for so many turns at most. -/
def turns (body : σ → σ ⊕ ρ) (r₀ : ρ) : Nat → σ → ρ
  | 0, _ => r₀
  | n + 1, s =>
    match body s with
    | .inl t => turns body r₀ n t
    | .inr r => r

/-- Enough turns of a loop that lowers a measure leave it at one of its heads. -/
theorem turns_leaves (r₀ : ρ) (μ : σ → Nat) (hturn : ∀ s t, body s = .inl t → μ t < μ s)
    (hn : μ s < n) : ∃ t, Heads body s t ∧ body t = .inr (turns body r₀ n s) := by
  induction n generalizing s with
  | zero => omega
  | succ n ih =>
    unfold turns
    cases hs : body s with
    | inr r => exact ⟨s, .enter, hs⟩
    | inl t =>
      have hlow := hturn s t hs
      obtain ⟨u, hu, hr⟩ := ih (s := t) (by omega)
      exact ⟨u, hu.head hs, hr⟩

/-- A head of the loop is the first one or a head of the loop after one turn. -/
theorem Heads.cases_head (h : Heads body s t) : t = s ∨ ∃ u, body s = .inl u ∧ Heads body u t := by
  induction h with
  | enter => exact .inl rfl
  | turn t u _ ht ih =>
    obtain rfl | ⟨v, hv, hvt⟩ := ih
    · exact .inr ⟨u, ht, .enter⟩
    · exact .inr ⟨v, hv, .turn t u hvt ht⟩

/-- The loop is left at one head only. -/
theorem turns_eq (r₀ : ρ) (μ : σ → Nat) (hturn : ∀ s t, body s = .inl t → μ t < μ s)
    (hn : μ s < n) (ht : Heads body s t) (hr : body t = .inr r) : turns body r₀ n s = r := by
  induction n generalizing s with
  | zero => omega
  | succ n ih =>
    unfold turns
    obtain rfl | ⟨u, hu, hut⟩ := ht.cases_head
    · rw [hr]
    · have hlow := hturn s u hu
      rw [hu]
      exact ih (by omega) hut

/-- The result of a loop that lowers a measure is what its body leaves with at some head. -/
theorem turns_eq_iff (r₀ : ρ) (μ : σ → Nat) (hturn : ∀ s t, body s = .inl t → μ t < μ s)
    (hn : μ s < n) : turns body r₀ n s = r ↔ ∃ t, Heads body s t ∧ body t = .inr r := by
  constructor
  · intro h
    obtain ⟨t, ht, hr⟩ := turns_leaves r₀ μ hturn hn
    exact ⟨t, ht, h ▸ hr⟩
  · rintro ⟨t, ht, hr⟩
    exact turns_eq r₀ μ hturn hn ht hr

end Loop
