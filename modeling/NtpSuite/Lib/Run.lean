import Mathlib

/-!
# Runs of a Step Function

A system that takes one event at a time is a step function from a state and
an event to a state, and a run is a list of events. This module has what can
be said of runs without knowing the system.

A condition on steps looks at the state before the step and the event. A run
meets it when each of its steps does, in the state that step starts from.
Since a prefix of such a run is again one, what holds at the end of every run
holds in every state on the way.

## Main definitions

* `exec`: The state after a run.
* `Meets`: Every step of a run meets a condition.
* `total`: The sum of a cost over the steps of a run.
* `both`: Two systems that take the same events side by side.

## Theorems

* `meets_congr`: Conditions that are the same in good states.
* `exec_invariant`: The rule of invariants, for runs that meet a condition.
* `exec_iff_meets`: The rule of damage that is not undone.
* `prefixes_iff_meets`: The rule of damage that may be undone.
* `total_le`: The rule of potentials.
-/

namespace Run

variable {σ ε : Type}

/-- The state after a run. -/
def exec (step : σ → ε → σ) (s : σ) (xs : List ε) : σ := xs.foldl step s

/-- Every step of the run meets the condition. -/
def Meets (step : σ → ε → σ) (cond : σ → ε → Prop) : σ → List ε → Prop
  | _, [] => True
  | s, x :: xs => cond s x ∧ Meets step cond (step s x) xs

instance decidableMeets (step : σ → ε → σ) (cond : σ → ε → Prop)
    [∀ s x, Decidable (cond s x)] : (s : σ) → (xs : List ε) → Decidable (Meets step cond s xs)
  | _, [] => .isTrue trivial
  | s, x :: xs =>
    have := decidableMeets step cond (step s x) xs
    inferInstanceAs (Decidable (cond s x ∧ Meets step cond (step s x) xs))

/-- The cost of a run. -/
def total (step : σ → ε → σ) (cost : σ → ε → Int) : σ → List ε → Int
  | _, [] => 0
  | s, x :: xs => cost s x + total step cost (step s x) xs

/-- Two systems side by side, such as a program and what an observer has seen of it. -/
def both {τ : Type} (f : σ → ε → σ) (g : τ → ε → τ) (s : σ × τ) (x : ε) : σ × τ :=
  (f s.1 x, g s.2 x)

@[simp] theorem exec_nil (step : σ → ε → σ) (s : σ) : exec step s [] = s := rfl

@[simp] theorem exec_cons (step : σ → ε → σ) (s : σ) (x : ε) (xs : List ε) :
    exec step s (x :: xs) = exec step (step s x) xs := rfl

theorem exec_append (step : σ → ε → σ) (s : σ) (xs ys : List ε) :
    exec step s (xs ++ ys) = exec step (exec step s xs) ys :=
  List.foldl_append

/-- Each of the two has its own run. -/
theorem exec_both {τ : Type} (f : σ → ε → σ) (g : τ → ε → τ) (s : σ) (o : τ) (xs : List ε) :
    exec (both f g) (s, o) xs = (exec f s xs, exec g o xs) := by
  induction xs generalizing s o with
  | nil => rfl
  | cons x xs ih => exact ih (f s x) (g o x)

variable {step : σ → ε → σ} {cond : σ → ε → Prop} (s : σ)

/-- A run meets a condition that its steps meet in every state. -/
theorem meets_of_forall {xs : List ε} (hxs : ∀ x ∈ xs, ∀ s, cond s x) : Meets step cond s xs := by
  induction xs generalizing s with
  | nil => trivial
  | cons x xs ih =>
    exact ⟨hxs x (by simp) s, ih (step s x) fun y hy => hxs y (List.mem_cons_of_mem x hy)⟩

/-- Every run meets a condition that asks for nothing. -/
theorem meets_true (step : σ → ε → σ) (s : σ) (xs : List ε) : Meets step (fun _ _ => True) s xs :=
  meets_of_forall s fun _ _ _ => trivial

/-- Two conditions that are the same in good states are met by the same runs. -/
theorem meets_congr {inv : σ → Prop} {cond' : σ → ε → Prop}
    (hiff : ∀ s x, inv s → (cond s x ↔ cond' s x))
    (hstep : ∀ s x, inv s → cond' s x → inv (step s x)) (xs : List ε) (hs : inv s) :
    Meets step cond s xs ↔ Meets step cond' s xs := by
  induction xs generalizing s with
  | nil => rfl
  | cons x xs ih =>
    unfold Meets
    rw [hiff s x hs]
    exact and_congr_right fun hcond => ih (step s x) (hstep s x hs hcond)

/-- What every step that meets the condition preserves holds after every run that meets it. -/
theorem exec_invariant {inv : σ → Prop} (hstep : ∀ s x, inv s → cond s x → inv (step s x)) (s : σ)
    (xs : List ε) (hs : inv s) (hm : Meets step cond s xs) : inv (exec step s xs) := by
  induction xs generalizing s with
  | nil => exact hs
  | cons x xs ih => exact ih (step s x) (hstep s x hs hm.1) hm.2

/-- If a property is there after a step if and only if it was there before and the
    step met a condition, then it is there after a run if and only if it was there
    at the start and every step met the condition. -/
theorem exec_iff_meets {inv prop : σ → Prop} (hinv : ∀ s x, inv s → inv (step s x))
    (hstep : ∀ s x, inv s → (prop (step s x) ↔ prop s ∧ cond s x)) (s : σ) (xs : List ε)
    (hs : inv s) : prop (exec step s xs) ↔ prop s ∧ Meets step cond s xs := by
  induction xs generalizing s with
  | nil => exact (and_iff_left trivial).symm
  | cons x xs ih =>
    rw [exec_cons, ih (step s x) (hinv s x hs), hstep s x hs, and_assoc]
    rfl

/-- If after a step from a good state a property is there if and only if the step met
    a condition, then it is there all along a run if and only if it is there at
    the start and every step met the condition. -/
theorem prefixes_iff_meets {inv prop : σ → Prop} (hinv : ∀ s x, inv s → inv (step s x))
    (hstep : ∀ s x, inv s → prop s → (prop (step s x) ↔ cond s x)) (s : σ) (xs : List ε)
    (hs : inv s) : (∀ ys, ys <+: xs → prop (exec step s ys)) ↔ prop s ∧ Meets step cond s xs := by
  induction xs generalizing s with
  | nil => simp [Meets]
  | cons x xs ih =>
    have htail := ih (step s x) (hinv s x hs)
    constructor
    · intro h
      have hnow : prop s := h [] (List.nil_prefix)
      obtain ⟨hnext, hmeets⟩ := htail.mp fun ys hys =>
        h (x :: ys) ((List.prefix_cons_inj x).mpr hys)
      exact ⟨hnow, (hstep s x hs hnow).mp hnext, hmeets⟩
    · rintro ⟨hnow, hcond, hmeets⟩ ys hys
      cases ys with
      | nil => exact hnow
      | cons y ys =>
        obtain ⟨rfl, htake⟩ := List.cons_prefix_cons.mp hys
        exact htail.mpr ⟨(hstep s y hs hnow).mpr hcond, hmeets⟩ ys htake

/-- If no step costs more than it raises the potential, no run does. -/
theorem total_le {inv : σ → Prop} {cost : σ → ε → Int} (pot : σ → Int)
    (hstep : ∀ s x, inv s → inv (step s x))
    (hcost : ∀ s x, inv s → cost s x ≤ pot (step s x) - pot s) (s : σ) (xs : List ε) (hs : inv s) :
    total step cost s xs ≤ pot (exec step s xs) - pot s := by
  induction xs generalizing s with
  | nil => simp [total]
  | cons x xs ih =>
    have hhead := hcost s x hs
    have htail := ih (step s x) (hstep s x hs)
    rw [total, exec_cons]
    linarith

end Run
