import NtpSuite.Lib.Run

/-!
# Fair Runs

Runs that never end, and what fairness makes of them.

A finite run can always stop before anything good has happened, so that a
system eventually does something is a statement about infinite runs. It is
also a statement about schedulers: a process that is never given a turn never
gets anywhere. `WeakFair` says that a process that could go on from some
moment on without interruption does get a turn.

`eventually_of_rank` is the rule by which such a goal is reached. As long as
it is not, some process can go on, the one named by `helper`. Its turn brings
the goal nearer, counted by `rank`; a turn of any other process brings it
nearer too, or leaves both the distance and the helper as they are.

## Main definitions

* `Path`: An infinite run.
* `WeakFair`: A process that can go on from some moment on gets a turn.
* `Path.follow`: A finite run, and the same event for ever after.

## Theorems

* `Path.invariant`: The rule of invariants, for infinite runs.
* `eventually_of_rank`: The rule of ranks.
* `Path.follow_meets`, `weakFair_of_rest`: A run that comes to rest.
-/

namespace Run

variable {σ ε κ : Type}

/-- An infinite run of a step function. -/
structure Path (step : σ → ε → σ) where
  state : Nat → σ
  event : Nat → ε
  next : ∀ n, state (n + 1) = step (state n) (event n)

/-- Every step of the infinite run meets a condition. -/
def Path.Meets {step : σ → ε → σ} (p : Path step) (cond : σ → ε → Prop) : Prop :=
  ∀ n, cond (p.state n) (p.event n)

/-- If the process is enabled from some moment on, it takes a step later. -/
def WeakFair {step : σ → ε → σ} (p : Path step) (enabled : σ → Prop) (does : ε → Prop) : Prop :=
  ∀ n, (∀ m, n ≤ m → enabled (p.state m)) → ∃ m, n ≤ m ∧ does (p.event m)

variable {step : σ → ε → σ} {cond : σ → ε → Prop}

/-- What every step that meets the condition preserves holds from a moment on at which it holds. -/
theorem Path.invariant (p : Path step) {inv : σ → Prop}
    (hstep : ∀ s x, inv s → cond s x → inv (step s x)) (hm : p.Meets cond) {n : Nat}
    (hn : inv (p.state n)) : ∀ m, n ≤ m → inv (p.state m) := by
  intro m hle
  induction m, hle using Nat.le_induction with
  | base => exact hn
  | succ m _ ih =>
    rw [p.next m]
    exact hstep _ _ ih (hm m)

/-- The rule of ranks: the goal is reached. -/
theorem eventually_of_rank (p : Path step) (inv goal : σ → Prop) (rank : σ → Nat) (helper : σ → κ)
    {enabled : κ → σ → Prop} {does : κ → ε → Prop} (hfair : ∀ k, WeakFair p (enabled k) (does k))
    (hm : p.Meets cond) (hinv : ∀ s x, inv s → cond s x → inv (step s x))
    (henabled : ∀ s, inv s → ¬goal s → enabled (helper s) s)
    (hrank : ∀ s x, inv s → cond s x → ¬goal s → goal (step s x) ∨ rank (step s x) < rank s ∨
        rank (step s x) = rank s ∧ helper (step s x) = helper s ∧ ¬does (helper s) x)
    {n : Nat} (hn : inv (p.state n)) : ∃ m, n ≤ m ∧ goal (p.state m) := by
  induction hr : rank (p.state n) using Nat.strong_induction_on generalizing n with
  | _ r ih =>
    by_contra hnever
    have hno : ∀ m, n ≤ m → ¬goal (p.state m) := fun m hle hg => hnever ⟨m, hle, hg⟩
    have hall := p.invariant hinv hm hn
    -- Were the distance ever less, the goal would be reached from there.
    have hleast : ∀ m, n ≤ m → ¬rank (p.state m) < r := by
      intro m hle hlt
      obtain ⟨m', hle', hg⟩ := ih _ hlt (hall m hle) rfl
      exact hno m' (Nat.le_trans hle hle') hg
    -- So nothing changes, and the helper does not get a turn.
    have hsame : ∀ m, n ≤ m →
        rank (p.state m) = r ∧ helper (p.state m) = helper (p.state n) := by
      intro m hle
      induction m, hle using Nat.le_induction with
      | base => exact ⟨hr, rfl⟩
      | succ m hle ihm =>
        have hnext := hno (m + 1) (Nat.le_succ_of_le hle)
        have hlow := hleast (m + 1) (Nat.le_succ_of_le hle)
        rw [p.next m] at hnext hlow ⊢
        rcases hrank _ _ (hall m hle) (hm m) (hno m hle) with hg | hlt | ⟨heq, hhelp, -⟩
        · exact absurd hg hnext
        · exact absurd (ihm.1 ▸ hlt) hlow
        · exact ⟨heq.trans ihm.1, hhelp.trans ihm.2⟩
    obtain ⟨m, hle, hdoes⟩ := hfair (helper (p.state n)) n (fun m hle => by
      have hen := henabled _ (hall m hle) (hno m hle)
      rwa [(hsame m hle).2] at hen)
    have hnext := hno (m + 1) (Nat.le_succ_of_le hle)
    have hlow := hleast (m + 1) (Nat.le_succ_of_le hle)
    rw [p.next m] at hnext hlow
    rcases hrank _ _ (hall m hle) (hm m) (hno m hle) with hg | hlt | ⟨-, -, hnot⟩
    · exact hnext hg
    · exact hlow ((hsame m hle).1 ▸ hlt)
    · rw [(hsame m hle).2] at hnot
      exact hnot hdoes

/-! ### Runs that come to rest -/

/-- A finite run, and the same event for ever after. -/
def Path.follow (step : σ → ε → σ) (s : σ) (xs : List ε) (x : ε) : Path step where
  state n := exec step s ((List.range n).map (xs.getD · x))
  event n := xs.getD n x
  next n := by
    rw [List.range_succ, List.map_append, exec_append]
    rfl

/-- After the first event, it is the run that starts there. -/
theorem Path.follow_succ (step : σ → ε → σ) (s : σ) (y : ε) (ys : List ε) (x : ε) (n : Nat) :
    (Path.follow step s (y :: ys) x).state (n + 1) =
      (Path.follow step (step s y) ys x).state n := by
  unfold Path.follow
  simp only [List.range_succ_eq_map, List.map_cons, List.map_map, exec_cons]
  rfl

/-- The infinite run meets the condition if the finite one does and it comes
    to rest in states in which the last event may happen. -/
theorem Path.follow_meets {s : σ} {xs : List ε} {x : ε} (rest : σ → Prop)
    (hm : Run.Meets step cond s xs) (hrest : rest (exec step s xs))
    (hstep : ∀ t, rest t → cond t x ∧ rest (step t x)) :
    (Path.follow step s xs x).Meets cond ∧
      ∀ n, xs.length ≤ n → rest ((Path.follow step s xs x).state n) := by
  induction xs generalizing s with
  | nil =>
    have hall : ∀ n, rest ((Path.follow step s [] x).state n) := by
      intro n
      induction n with
      | zero => exact hrest
      | succ n ih =>
        rw [(Path.follow step s [] x).next n]
        exact (hstep _ ih).2
    exact ⟨fun n => (hstep _ (hall n)).1, fun n _ => hall n⟩
  | cons y ys ih =>
    obtain ⟨hcond, hafter⟩ := ih hm.2 hrest
    constructor
    · intro n
      cases n with
      | zero => exact hm.1
      | succ n =>
        rw [Path.follow_succ]
        exact hcond n
    · intro n hle
      cases n with
      | zero => exact absurd hle (Nat.not_succ_le_zero _)
      | succ n =>
        rw [Path.follow_succ]
        exact hafter n (Nat.le_of_succ_le_succ hle)

/-- A run in which nothing is enabled in the end is fair. -/
theorem weakFair_of_rest {p : Path step} {enabled : σ → Prop} {does : ε → Prop} {N : Nat}
    (h : ∀ n, N ≤ n → ¬enabled (p.state n)) : WeakFair p enabled does := by
  intro n hall
  exact absurd (hall (max n N) (le_max_left n N)) (h (max n N) (le_max_right n N))

end Run
