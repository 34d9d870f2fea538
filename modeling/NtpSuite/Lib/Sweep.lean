import Mathlib

/-!
# Sweeping a Family of Intervals

How many closed intervals of a finite family contain a point, and how a
single pass over the sorted endpoints finds the outermost points that enough
of them contain.

The pass adds one at a lower end and takes one off at an upper end, and stops
when the running sum reaches a threshold `k`. At a lower end the sum is the
number of intervals that contain it, provided no interval ends there. At an
upper end it is one short. So the pass cannot stop too early, and since every
point has a lower end to its left that at least as many intervals contain, it
cannot stop too late. `scan_isLeast` is that argument.

The pass from the other side is the same one in the dual order, with lower
and upper ends exchanged. It needs no second proof.

## Main definitions

* `scan`: The value at which the running sum of weights reaches a threshold.
* `depth`: The number of intervals that contain a point.
* `marks`: The weighted endpoints of a family.

## Theorems

* `scan_isLeast`: A pass finds the least point of the given depth.
* `scan_none`: A pass that finds nothing proves there is no such point.
* `scan_isGreatest`, `scan_none_down`: The same for a pass from above.
* `exists_mem_of_countP`: Two majorities share a member.
-/

namespace Sweep

open List

variable {α : Type} [LinearOrder α]

/-- The value at which the running sum, starting from `n`, reaches `k`. -/
def scan (k : Int) : Int → List (α × Int) → Option α
  | _, [] => none
  | n, e :: es => if k ≤ n + e.2 then some e.1 else scan k (n + e.2) es

/-- The sum of the weights at or below a value. -/
def weight (es : List (α × Int)) (v : α) : Int :=
  ((es.filter (fun e => e.1 ≤ v)).map Prod.snd).sum

/-- The number of intervals that contain a point. -/
def depth (I : List (α × α)) (x : α) : Nat :=
  I.countP (fun i => i.1 ≤ x ∧ x ≤ i.2)

/-- The endpoints of a family, lower ends with weight one and upper ends with weight minus one. -/
def marks (I : List (α × α)) : List (α × Int) :=
  I.flatMap (fun i => [(i.1, 1), (i.2, -1)])

variable {k : Int}

theorem weight_cons (e : α × Int) (es : List (α × Int)) (v : α) :
    weight (e :: es) v = (if e.1 ≤ v then e.2 else 0) + weight es v := by
  by_cases h : e.1 ≤ v
  · simp [weight, h]
  · simp [weight, h]

theorem weight_perm {es fs : List (α × Int)} (h : es.Perm fs) (v : α) : weight es v = weight fs v :=
  ((h.filter _).map _).sum_eq

variable (es : List (α × Int)) (v : α) (I : List (α × α))

/-- Below every endpoint nothing has been added yet. -/
theorem weight_eq_zero (h : ∀ e ∈ es, v < e.1) : weight es v = 0 := by
  have hnil : es.filter (fun e => e.1 ≤ v) = [] := by
    rw [filter_eq_nil_iff]
    intro e he
    simpa using h e he
  rw [weight, hnil]
  rfl

/-- In a sorted list the first value that a pass stops at is the least
    endpoint up to which the weights add up to the threshold. -/
theorem scan_some (k n : Int) (es : List (α × Int)) (v : α)
    (hs : es.Pairwise (fun a b => a.1 < b.1)) (h : scan k n es = some v) :
    (∃ e ∈ es, e.1 = v) ∧ k ≤ n + weight es v
      ∧ ∀ e ∈ es, k ≤ n + weight es e.1 → v ≤ e.1 := by
  induction es generalizing n with
  | nil => simp [scan] at h
  | cons e es ih =>
    obtain ⟨hlt, hs⟩ := pairwise_cons.mp hs
    have hfirst : weight (e :: es) e.1 = e.2 := by
      rw [weight_cons, weight_eq_zero es e.1 hlt]
      simp
    rw [scan] at h
    by_cases hk : k ≤ n + e.2
    · rw [if_pos hk, Option.some.injEq] at h
      subst h
      refine ⟨⟨e, by simp, rfl⟩, by rw [hfirst]; exact hk, ?_⟩
      intro f hf _
      rcases mem_cons.mp hf with rfl | hf
      · exact le_refl _
      · exact (hlt f hf).le
    · rw [if_neg hk] at h
      obtain ⟨⟨f, hf, hfv⟩, hw, hmin⟩ := ih (n + e.2) hs h
      -- Past the first endpoint its weight is part of every sum.
      have hshift : ∀ g ∈ es, n + weight (e :: es) g.1 = n + e.2 + weight es g.1 := by
        intro g hg
        rw [weight_cons, if_pos (hlt g hg).le, add_assoc]
      refine ⟨⟨f, mem_cons_of_mem _ hf, hfv⟩, ?_, ?_⟩
      · rw [← hfv, hshift f hf, hfv]
        exact hw
      · intro g hg hgw
        rcases mem_cons.mp hg with rfl | hg
        · rw [hfirst] at hgw
          exact absurd hgw hk
        · rw [hshift g hg] at hgw
          exact hmin g hg hgw

/-- A pass that does not stop has met no such endpoint. -/
theorem scan_eq_none (k n : Int) (es : List (α × Int))
    (hs : es.Pairwise (fun a b => a.1 < b.1)) (h : scan k n es = none) :
    ∀ e ∈ es, n + weight es e.1 < k := by
  induction es generalizing n with
  | nil => simp
  | cons e es ih =>
    obtain ⟨hlt, hs⟩ := pairwise_cons.mp hs
    rw [scan] at h
    by_cases hk : k ≤ n + e.2
    · rw [if_pos hk] at h
      exact absurd h (by simp)
    · rw [if_neg hk] at h
      intro f hf
      rcases mem_cons.mp hf with rfl | hf
      · rw [weight_cons, weight_eq_zero es f.1 hlt]
        simp only [le_refl, if_true, add_zero]
        omega
      · rw [weight_cons, if_pos (hlt f hf).le, ← add_assoc]
        exact ih (n + e.2) hs h f hf

/-- The weights of a family count the intervals begun and the ones ended. -/
theorem weight_marks (v : α) :
    weight (marks I) v = (I.countP (fun i => i.1 ≤ v) : Int) - I.countP (fun i => i.2 ≤ v) := by
  induction I with
  | nil => rfl
  | cons i I ih =>
    have hcons : marks (i :: I) = (i.1, 1) :: (i.2, -1) :: marks I := rfl
    rw [hcons, weight_cons, weight_cons]
    simp only [countP_cons, decide_eq_true_eq]
    split <;> split <;> push_cast <;> omega

/-- Every interval is either not begun, or ended, or contains the point. -/
theorem depth_add (v : α) (h : ∀ i ∈ I, i.1 ≤ i.2) :
    depth I v + I.countP (fun i => i.2 < v) = I.countP (fun i => i.1 ≤ v) := by
  induction I with
  | nil => rfl
  | cons i I ih =>
    have htail := ih (fun j hj => h j (mem_cons_of_mem _ hj))
    have hi : i.1 ≤ i.2 := h i (by simp)
    simp only [depth, countP_cons, decide_eq_true_eq] at htail ⊢
    -- The interval counts once on either side, or not at all.
    by_cases hlo : i.1 ≤ v
    · by_cases hhi : v ≤ i.2
      · simp only [hlo, hhi, not_lt.mpr hhi, and_self, if_true, if_false]
        omega
      · simp only [hlo, hhi, not_le.mp hhi, and_false, if_true, if_false]
        omega
    · have hlt : ¬ i.2 < v := fun hc => hlo (hi.trans hc.le)
      simp only [hlo, hlt, false_and, if_false]
      omega

/-- The weight never exceeds the depth. -/
theorem weight_le_depth (v : α) (h : ∀ i ∈ I, i.1 ≤ i.2) : weight (marks I) v ≤ depth I v := by
  have hle : I.countP (fun i => i.2 < v) ≤ I.countP (fun i => i.2 ≤ v) := by
    apply countP_mono_left
    intro i _ hi
    simp only [decide_eq_true_eq] at hi ⊢
    exact hi.le
  have hadd := depth_add I v h
  rw [weight_marks]
  omega

/-- Where no interval ends the weight is the depth. -/
theorem weight_eq_depth (v : α) (h : ∀ i ∈ I, i.1 ≤ i.2) (hv : ∀ i ∈ I, i.2 ≠ v) :
    weight (marks I) v = depth I v := by
  have heq : I.countP (fun i => i.2 < v) = I.countP (fun i => i.2 ≤ v) := by
    apply countP_congr
    intro i hi
    simp only [decide_eq_true_eq]
    exact (hv i hi).le_iff_lt.symm
  have hadd := depth_add I v h
  rw [weight_marks]
  omega

/-- A point that some interval contains has a lower end to its left which at
    least as many intervals contain. -/
theorem exists_lower (x : α) (hx : 0 < depth I x) : ∃ i ∈ I, i.1 ≤ x ∧ depth I x ≤ depth I i.1 := by
  -- The greatest lower end that is not to the right of the point.
  have hne : I.filter (fun i => i.1 ≤ x) ≠ [] := by
    intro hnil
    obtain ⟨i, hi, hix⟩ := countP_pos_iff.mp hx
    have hmem : i ∈ I.filter (fun i => i.1 ≤ x) := by
      simp only [mem_filter, decide_eq_true_eq] at hix ⊢
      exact ⟨hi, hix.1⟩
    rw [hnil] at hmem
    exact absurd hmem (by simp)
  obtain ⟨i, hi, hmax⟩ :=
    (I.filter (fun i => i.1 ≤ x)).toFinset.exists_max_image Prod.fst
      (by simpa [Finset.Nonempty] using exists_mem_of_ne_nil _ hne)
  simp only [mem_toFinset, mem_filter, decide_eq_true_eq] at hi hmax
  refine ⟨i, hi.1, hi.2, ?_⟩
  apply countP_mono_left
  intro j hj hjx
  simp only [decide_eq_true_eq] at hjx ⊢
  exact ⟨hmax j ⟨hj, hjx.1⟩, hi.2.trans hjx.2⟩

/-- The endpoints of a family are pairwise distinct. -/
def Distinct (I : List (α × α)) : Prop := (I.flatMap (fun i => [i.1, i.2])).Nodup

omit [LinearOrder α] in
theorem marks_map_fst : (marks I).map Prod.fst = I.flatMap (fun i => [i.1, i.2]) := by
  rw [marks, map_flatMap]
  rfl

/-- With distinct endpoints no interval ends where one begins. -/
theorem Distinct.lower_ne_upper {I : List (α × α)} (h : Distinct I) {i j : α × α}
    (hi : i ∈ I) (hj : j ∈ I) : i.1 ≠ j.2 := by
  intro heq
  obtain ⟨hself, hpair⟩ := nodup_flatMap.mp h
  by_cases hij : i = j
  · subst hij
    have hnodup := hself i hi
    simp [heq] at hnodup
  · have hsymm : Std.Symm (Function.onFun List.Disjoint fun i : α × α => [i.1, i.2]) :=
      ⟨fun _ _ hd => List.Disjoint.symm hd⟩
    have hdisj := hpair.forall hi hj hij
    exact hdisj (a := i.1) (by simp) (by simp [heq])

/-- Sorting distinct endpoints leaves them in strict order. -/
theorem pairwise_lt_of_perm {I : List (α × α)} {es : List (α × Int)} (hd : Distinct I)
    (hp : es.Perm (marks I)) (hs : es.Pairwise (fun a b => a.1 ≤ b.1)) :
    es.Pairwise (fun a b => a.1 < b.1) := by
  -- Sorted and without repetition is strictly sorted.
  have hnodup : (es.map Prod.fst).Nodup := by
    rw [(hp.map Prod.fst).nodup_iff, marks_map_fst]
    exact hd
  have hne : es.Pairwise (fun a b => a.1 ≠ b.1) := pairwise_map.mp hnodup
  refine (hs.and hne).imp ?_
  intro a b hab
  exact lt_of_le_of_ne hab.1 hab.2

/-- The endpoint at which a pass would stop for the sake of a point: it is
    not to the right of the point and the weights up to it reach the depth. -/
theorem exists_weight_ge (x : α) (k : Int) (h : ∀ i ∈ I, i.1 ≤ i.2) (hd : Distinct I) (hk : 0 < k)
    (hx : k ≤ depth I x) : ∃ e ∈ marks I, e.1 ≤ x ∧ k ≤ weight (marks I) e.1 := by
  obtain ⟨i, hi, hix, hdep⟩ := exists_lower I x (by omega)
  refine ⟨(i.1, 1), ?_, hix, ?_⟩
  · simp only [marks, mem_flatMap]
    exact ⟨i, hi, by simp⟩
  · rw [weight_eq_depth I i.1 h (fun j hj => (hd.lower_ne_upper hi hj).symm)]
    omega

/-- A pass over the sorted endpoints stops at the least point that `k` of the intervals contain. -/
theorem scan_isLeast {I : List (α × α)} {es : List (α × Int)} {v : α} (h : ∀ i ∈ I, i.1 ≤ i.2)
    (hd : Distinct I) (hp : es.Perm (marks I)) (hs : es.Pairwise (fun a b => a.1 ≤ b.1))
    (hk : 0 < k) (hv : scan k 0 es = some v) : IsLeast {x | k ≤ depth I x} v := by
  obtain ⟨_, hw, hmin⟩ := scan_some k 0 es v (pairwise_lt_of_perm hd hp hs) hv
  rw [zero_add, weight_perm hp] at hw
  refine ⟨le_trans hw (weight_le_depth I v h), ?_⟩
  -- The pass has met an endpoint for the sake of every such point.
  intro x hx
  obtain ⟨e, he, hex, hew⟩ := exists_weight_ge I x k h hd hk hx
  have hve := hmin e (hp.mem_iff.mpr he) (by rw [zero_add, weight_perm hp]; exact hew)
  exact hve.trans hex

/-- A pass over the sorted endpoints that does not stop shows that no point
    is in `k` of the intervals. -/
theorem scan_none {I : List (α × α)} {es : List (α × Int)} (h : ∀ i ∈ I, i.1 ≤ i.2)
    (hd : Distinct I) (hp : es.Perm (marks I)) (hs : es.Pairwise (fun a b => a.1 ≤ b.1))
    (hk : 0 < k) (hv : scan k 0 es = none) (x : α) : depth I x < k := by
  by_contra hc
  obtain ⟨e, he, _, hew⟩ := exists_weight_ge I x k h hd hk (not_lt.mp hc)
  have hlt := scan_eq_none k 0 es (pairwise_lt_of_perm hd hp hs) hv e (hp.mem_iff.mpr he)
  rw [zero_add, weight_perm hp] at hlt
  exact absurd hew (not_le.mpr hlt)

/-- The endpoints of a family, weighted for a pass from above. -/
def marksDown (I : List (α × α)) : List (α × Int) :=
  I.flatMap (fun i => [(i.1, -1), (i.2, 1)])

section Dual

open OrderDual

/-- A family read in the dual order, each interval from its other end. -/
def flip (I : List (α × α)) : List (αᵒᵈ × αᵒᵈ) := I.map (fun i => (toDual i.2, toDual i.1))

theorem depth_flip (I : List (α × α)) (x : α) : depth (flip I) (toDual x) = depth I x := by
  rw [depth, flip, countP_map]
  apply countP_congr
  intro i _
  simp only [Function.comp_apply, decide_eq_true_eq, toDual_le_toDual]
  exact and_comm

variable {I : List (α × α)}

theorem flip_le (h : ∀ i ∈ I, i.1 ≤ i.2) : ∀ i ∈ flip I, i.1 ≤ i.2 := by
  intro j hj
  obtain ⟨i, hi, rfl⟩ := mem_map.mp hj
  exact toDual_le_toDual.mpr (h i hi)

omit [LinearOrder α] in
theorem Distinct.flip (h : Distinct I) : Distinct (Sweep.flip I) := by
  have hperm : ((Sweep.flip I).flatMap (fun i => [i.1, i.2])).Perm
      ((I.flatMap (fun i => [i.1, i.2])).map toDual) := by
    rw [Sweep.flip, flatMap_map, map_flatMap]
    exact List.Perm.flatMap_left I (fun i _ => List.Perm.swap _ _ _)
  rw [Distinct, hperm.nodup_iff]
  exact h.map toDual.injective

omit [LinearOrder α] in
/-- The endpoints for a pass from above, read in the dual order. -/
theorem marksDown_perm (I : List (α × α)) :
    ((marksDown I).map (fun e => (toDual e.1, e.2))).Perm (marks (flip I)) := by
  rw [marksDown, marks, flip, flatMap_map, map_flatMap]
  exact List.Perm.flatMap_left I (fun i _ => List.Perm.swap _ _ _)

omit [LinearOrder α] in
/-- A pass does not look at the order. -/
theorem scan_toDual (k n : Int) (es : List (α × Int)) :
    scan k n (es.map (fun e => (toDual e.1, e.2))) = (scan k n es).map toDual := by
  induction es generalizing n with
  | nil => rfl
  | cons e es ih =>
    simp only [map_cons, scan]
    by_cases hk : k ≤ n + e.2
    · rw [if_pos hk, if_pos hk]
      rfl
    · rw [if_neg hk, if_neg hk]
      exact ih (n + e.2)

/-- A pass from above stops at the greatest point that `k` of the intervals contain. -/
theorem scan_isGreatest {es : List (α × Int)} {v : α} (h : ∀ i ∈ I, i.1 ≤ i.2) (hd : Distinct I)
    (hp : es.Perm (marksDown I)) (hs : es.Pairwise (fun a b => b.1 ≤ a.1)) (hk : 0 < k)
    (hv : scan k 0 es = some v) : IsGreatest {x | k ≤ depth I x} v := by
  -- The same pass in the dual order.
  have hdual := scan_isLeast (flip_le h) hd.flip ((hp.map _).trans (marksDown_perm I))
    (pairwise_map.mpr hs) hk (v := toDual v) (by rw [scan_toDual, hv]; rfl)
  refine ⟨?_, ?_⟩
  · have hmem : k ≤ depth (flip I) (toDual v) := hdual.1
    rw [depth_flip] at hmem
    exact hmem
  · intro x hx
    have hmem : k ≤ depth (flip I) (toDual x) := by
      rw [depth_flip]
      exact hx
    exact toDual_le_toDual.mp (hdual.2 hmem)

/-- A pass from above that does not stop shows that no point is in `k` of the intervals. -/
theorem scan_none_down {es : List (α × Int)} (h : ∀ i ∈ I, i.1 ≤ i.2) (hd : Distinct I)
    (hp : es.Perm (marksDown I)) (hs : es.Pairwise (fun a b => b.1 ≤ a.1)) (hk : 0 < k)
    (hv : scan k 0 es = none) (x : α) : depth I x < k := by
  have hdual := scan_none (flip_le h) hd.flip ((hp.map _).trans (marksDown_perm I))
    (pairwise_map.mpr hs) hk (by rw [scan_toDual, hv]; rfl) (toDual x)
  rwa [depth_flip] at hdual

end Dual

/-- Two properties that together hold more often than there are members hold
    of one member at once. -/
theorem exists_mem_of_countP {β : Type} (p q : β → Bool) (l : List β)
    (h : l.length < l.countP p + l.countP q) : ∃ b ∈ l, p b ∧ q b := by
  induction l with
  | nil => simp at h
  | cons b l ih =>
    by_cases hb : p b ∧ q b
    · exact ⟨b, by simp, hb⟩
    · -- The member at the front accounts for at most one of the two counts.
      have htail : l.length < l.countP p + l.countP q := by
        simp only [countP_cons, length_cons] at h
        rcases not_and_or.mp hb with hb | hb
        · rw [if_neg hb] at h
          split at h <;> omega
        · split at h <;> omega
      obtain ⟨c, hc, hpq⟩ := ih htail
      exact ⟨c, mem_cons_of_mem _ hc, hpq⟩

end Sweep
