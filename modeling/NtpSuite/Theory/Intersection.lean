import NtpSuite.Core.Select
import NtpSuite.Core.Defaults
import NtpSuite.Lib.Sweep

/-!
# The Intersection Algorithm

What the sort and the scans of the selection compute. Each candidate claims
that the true time is in the interval around its offset. The algorithm looks
for the least number of falsetickers under which the claims of the others
have more than a point in common, and bounds what they have in common.

The two scans are passes of `Sweep.scan` over the sorted endpoints, one from
each side. So the bounds of a round are the outermost points that enough
intervals contain, when there is such a point at all. When there is none the
scans run to the end and leave the bounds in the wrong order, and the loop
goes on. What the loop stops at is then a matter of induction on the rounds
left.

A majority argument connects the bounds to the candidates. More than half of
the intervals contain `low` and more than half contain `high`, so one of them
contains both.

## Main definitions

* `intervals`: The intervals of the candidates.
* `Agree`: Enough intervals contain each of two distinct points.
* `Overlaps`: The overlap test of the cull.

## Theorems

* `SortedEnds.round`: The bounds of one round.
* `SortedEnds.intersectLoop_spec`: What the loop stops at.
* `intersection_correct`: The algorithm, and what the cull makes of it.
-/

namespace NtpSuite

open List Sweep

section Scans

variable {β : Type}

/-- An endpoint as the upward scan weighs it. -/
def upMark (e : Endpoint β) : β × Int := (e.val, -e.type)

/-- An endpoint as the downward scan weighs it. -/
def downMark (e : Endpoint β) : β × Int := (e.val, e.type)

/-- The upward scan is a pass; if it does not stop it ends at the last endpoint. -/
theorem scanLow_eq (k n : Int) (low : β) (es : List (Endpoint β)) :
    scanLow k n low es = (Sweep.scan k n (es.map upMark)).getD
      (((es.map Endpoint.val).getLast?).getD low) := by
  induction es generalizing n low with
  | nil => rfl
  | cons e es ih =>
    have hsum : n - e.type = n + (upMark e).2 := by
      simp only [upMark]
      omega
    simp only [scanLow, map_cons, Sweep.scan, ge_iff_le, hsum]
    by_cases hk : k ≤ n + (upMark e).2
    · rw [if_pos hk, if_pos hk]
      rfl
    · rw [if_neg hk, if_neg hk, ih, List.getLast?_cons]
      rfl

theorem scanHigh_eq (k n : Int) (high : β) (es : List (Endpoint β)) :
    scanHigh k n high es = (Sweep.scan k n (es.map downMark)).getD
      (((es.map Endpoint.val).getLast?).getD high) := by
  induction es generalizing n high with
  | nil => rfl
  | cons e es ih =>
    have hsum : n + e.type = n + (downMark e).2 := rfl
    simp only [scanHigh, map_cons, Sweep.scan, ge_iff_le, hsum]
    by_cases hk : k ≤ n + (downMark e).2
    · rw [if_pos hk, if_pos hk]
      rfl
    · rw [if_neg hk, if_neg hk, ih, List.getLast?_cons]
      rfl

end Scans

section Rounds

variable {β : Type} [LinearOrder β]

/-- The endpoints `es` are those of the family `I`, in order, and no two of them coincide. -/
structure SortedEnds (I : List (β × β)) (es : List (Endpoint β)) : Prop where
  le : ∀ i ∈ I, i.1 ≤ i.2
  distinct : Sweep.Distinct I
  ends : (es.map upMark).Perm (Sweep.marks I)
  sorted : es.Pairwise (fun a b => a.val ≤ b.val)

/-- At least `k` intervals contain each of two distinct points. -/
def Agree (I : List (β × β)) (k : Int) : Prop :=
  ∃ x y, x ≠ y ∧ k ≤ Sweep.depth I x ∧ k ≤ Sweep.depth I y

variable {I : List (β × β)} {es : List (Endpoint β)}

section

variable (h : SortedEnds I es)

include h

theorem SortedEnds.ends_down : (es.reverse.map downMark).Perm (Sweep.marksDown I) := by
  have hneg : es.map downMark = (es.map upMark).map (fun m => (m.1, -m.2)) := by
    simp [upMark, downMark]
  have hmarks : (Sweep.marks I).map (fun m => (m.1, -m.2)) = Sweep.marksDown I := by
    rw [Sweep.marks, map_flatMap]
    rfl
  have hrev : (es.reverse.map downMark).Perm (es.map downMark) :=
    (reverse_perm es).map downMark
  rw [hneg] at hrev
  exact hrev.trans (hmarks ▸ h.ends.map (fun m => (m.1, -m.2)))

theorem SortedEnds.up : (es.map upMark).Pairwise (fun a b => a.1 ≤ b.1) :=
  pairwise_map.mpr h.sorted

theorem SortedEnds.down : (es.reverse.map downMark).Pairwise (fun a b => b.1 ≤ a.1) :=
  pairwise_map.mpr (pairwise_reverse.mpr h.sorted)

/-- The bounds of a round, when some point is in `k` intervals: the least and
    the greatest such point. -/
theorem SortedEnds.round {k : Int} (hk : 0 < k) (low high : β) (hx : ∃ x, k ≤ Sweep.depth I x) :
    IsLeast {x | k ≤ Sweep.depth I x} (scanLow k 0 low es)
      ∧ IsGreatest {x | k ≤ Sweep.depth I x} (scanHigh k 0 high es.reverse) := by
  obtain ⟨x, hx⟩ := hx
  -- Each scan is a pass of the library, one from either side.
  constructor
  · rw [scanLow_eq]
    rcases hs : Sweep.scan k 0 (es.map upMark) with _ | v
    · exact absurd (scan_none h.le h.distinct h.ends h.up hk hs x) (not_lt.mpr hx)
    · exact scan_isLeast h.le h.distinct h.ends h.up hk hs
  · rw [scanHigh_eq]
    rcases hs : Sweep.scan k 0 (es.reverse.map downMark) with _ | v
    · exact absurd (scan_none_down h.le h.distinct h.ends_down h.down hk hs x)
        (not_lt.mpr hx)
    · exact scan_isGreatest h.le h.distinct h.ends_down h.down hk hs

/-- When no point is in `k` intervals the scans run to the end and cross. -/
theorem SortedEnds.round_none {k : Int} (hk : 0 < k) {low high : β}
    (hle : high ≤ low) (hx : ¬ ∃ x, k ≤ Sweep.depth I x) :
    scanHigh k 0 high es.reverse ≤ scanLow k 0 low es := by
  rw [scanLow_eq, scanHigh_eq]
  rcases hsl : Sweep.scan k 0 (es.map upMark) with _ | v
  · rcases hsh : Sweep.scan k 0 (es.reverse.map downMark) with _ | w
    · -- Both scans end at the far end of the endpoints.
      rcases hes : es with _ | ⟨e, es'⟩
      · simpa using hle
      · have hlast := List.getLast?_eq_some_getLast (l := (e :: es').map Endpoint.val) (by simp)
        have hmem := getLast_mem (l := (e :: es').map Endpoint.val) (by simp)
        generalize ((e :: es').map Endpoint.val).getLast (by simp) = z at hlast hmem
        have hz : e.val ≤ z := by
          obtain ⟨f, hf, rfl⟩ := mem_map.mp hmem
          rcases mem_cons.mp hf with rfl | hf
          · exact le_refl _
          · exact (pairwise_cons.mp (hes ▸ h.sorted)).1 f hf
        rw [hlast]
        simpa using hz
    · exact absurd ⟨w, (scan_isGreatest h.le h.distinct h.ends_down h.down hk hsh).1⟩ hx
  · exact absurd ⟨v, (scan_isLeast h.le h.distinct h.ends h.up hk hsl).1⟩ hx

/-- A round ends with its bounds in order if and only if two distinct points
    are in enough intervals. -/
theorem SortedEnds.round_lt_iff {k : Int} (hk : 0 < k) {low high : β} (hle : high ≤ low) :
    scanLow k 0 low es < scanHigh k 0 high es.reverse ↔ Agree I k := by
  constructor
  · intro hlt
    by_cases hx : ∃ x, k ≤ Sweep.depth I x
    · obtain ⟨hl, hh⟩ := h.round hk low high hx
      exact ⟨_, _, hlt.ne, hl.1, hh.1⟩
    · exact absurd hlt (not_lt.mpr (h.round_none hk hle hx))
  · rintro ⟨x, y, hne, hx, hy⟩
    obtain ⟨hl, hh⟩ := h.round hk low high ⟨x, hx⟩
    -- The bounds enclose both points.
    rcases lt_or_gt_of_ne hne with hlt | hlt
    · exact lt_of_le_of_lt (hl.2 hx) (lt_of_lt_of_le hlt (hh.2 hy))
    · exact lt_of_le_of_lt (hl.2 hy) (lt_of_lt_of_le hlt (hh.2 hx))

/-- What the loop stops at, with enough fuel: the first number of falsetickers
    from `allow` on under which the others agree, with the bounds of that
    round; or, if there is none, bounds that are not in order. -/
theorem SortedEnds.intersectLoop_spec (nlist fuel allow : Nat) (low high : β)
    (hfuel : nlist ≤ 2 * (allow + fuel)) (hle : high ≤ low) :
    (∃ a lo hi, allow ≤ a ∧ 2 * a < nlist ∧ Agree I ((nlist : Int) - a)
        ∧ (∀ b, allow ≤ b → b < a → ¬ Agree I ((nlist : Int) - b))
        ∧ intersectLoop nlist es fuel allow low high
          = (a, scanLow ((nlist : Int) - a) 0 lo es, scanHigh ((nlist : Int) - a) 0 hi es.reverse))
      ∨ ((∀ b, allow ≤ b → 2 * b < nlist → ¬ Agree I ((nlist : Int) - b))
        ∧ (intersectLoop nlist es fuel allow low high).2.2
          ≤ (intersectLoop nlist es fuel allow low high).2.1) := by
  -- Induction on the fuel. A round that fails leaves bounds out of order,
  -- which is all the next round asks of them.
  induction fuel generalizing allow low high with
  | zero =>
    refine .inr ⟨?_, hle⟩
    omega
  | succ fuel ih =>
    by_cases hallow : 2 * allow < nlist
    · have hk : (0 : Int) < (nlist : Int) - allow := by omega
      rw [intersectLoop]
      simp only [hallow, if_true]
      by_cases hlt : scanLow ((nlist : Int) - allow) 0 low es
          < scanHigh ((nlist : Int) - allow) 0 high es.reverse
      · -- The bounds are in order: the loop stops here.
        left
        refine ⟨allow, low, high, le_refl _, hallow, (h.round_lt_iff hk hle).mp hlt, ?_, if_pos hlt⟩
        omega
      · have hno : ¬ Agree I ((nlist : Int) - allow) :=
          fun hc => hlt ((h.round_lt_iff hk hle).mpr hc)
        -- Allow one more falseticker.
        rw [if_neg hlt]
        rcases ih (allow + 1) (scanLow ((nlist : Int) - allow) 0 low es)
          (scanHigh ((nlist : Int) - allow) 0 high es.reverse) (by omega) (not_lt.mp hlt) with
          ⟨a, lo, hi, ha, h2a, hagree, hfirst, heq⟩ | ⟨hnone, hle'⟩
        · left
          refine ⟨a, lo, hi, by omega, h2a, hagree, ?_, heq⟩
          intro b hb hba
          rcases Nat.eq_or_lt_of_le hb with rfl | hb
          · exact hno
          · exact hfirst b hb hba
        · right
          refine ⟨?_, hle'⟩
          intro b hb hb2
          rcases Nat.eq_or_lt_of_le hb with rfl | hb
          · exact hno
          · exact hnone b hb hb2
    · rw [intersectLoop]
      simp only [hallow, if_false]
      refine .inr ⟨?_, hle⟩
      omega

end

end Rounds

section Candidates

variable {α : Type} [Field α] [LinearOrder α]

/-- The intervals of the candidates. -/
def intervals (ps : List (PeerSelect α)) : List (α × α) :=
  ps.map (fun q => (q.peer.offset - q.synch, q.peer.offset + q.synch))

/-- `a` falsetickers are a minority, and the other candidates agree. -/
def Consistent (ps : List (PeerSelect α)) (a : Nat) : Prop :=
  2 * a < ps.length ∧ Agree (intervals ps) ((ps.length : Int) - a)

/-- The interval of the candidate overlaps that from `low` to `high`. -/
def Overlaps (low high : α) (q : PeerSelect α) : Prop :=
  low < high ∧ low ≤ q.peer.offset + q.synch ∧ q.peer.offset - q.synch ≤ high

instance (low high : α) (q : PeerSelect α) : Decidable (Overlaps low high q) :=
  inferInstanceAs (Decidable (_ ∧ _))

/-- The cull keeps the candidates that overlap, and those marked true. -/
theorem isTruechimer_iff (low high : α) (q : PeerSelect α) :
    isTruechimer low high q ↔ Overlaps low high q ∨ q.peer.flags.truechimer := by
  simp only [isTruechimer, Overlaps, Bool.or_eq_true, Bool.not_eq_true', Bool.or_eq_false_iff,
    decide_eq_false_iff_not, not_le, not_lt, gt_iff_lt, and_assoc]

variable (ps : List (PeerSelect α))

omit [LinearOrder α] in
/-- The endpoints the source builds are those of the intervals. -/
theorem endpoints_upMark : (endpoints ps).map upMark = Sweep.marks (intervals ps) := by
  rw [endpoints, Sweep.marks, intervals, map_flatMap, flatMap_map]
  rfl

/-- The sorted endpoints, for distances that are positive and endpoints that differ. -/
theorem sortedEnds_sort [IsStrictOrderedRing α] (hpos : ∀ q ∈ ps, 0 < q.synch)
    (hdistinct : ((endpoints ps).map Endpoint.val).Nodup) :
    SortedEnds (intervals ps) (SelectionSort.sort Endpoint.val (endpoints ps)) := by
  refine ⟨?_, ?_, ?_, SelectionSort.sort_pairwise _ _⟩
  · intro i hi
    obtain ⟨q, hq, rfl⟩ := mem_map.mp hi
    have hq := hpos q hq
    linarith
  · -- The endpoints that differ are those of the intervals.
    have hends : (endpoints ps).map Endpoint.val = (Sweep.marks (intervals ps)).map Prod.fst := by
      rw [← endpoints_upMark, map_map]
      rfl
    rw [Sweep.Distinct, ← marks_map_fst, ← hends]
    exact hdistinct
  · rw [← endpoints_upMark]
    exact (SelectionSort.sort_perm _ _).map upMark

/-- The number of intervals that contain a point, as a count of candidates. -/
theorem depth_intervals (x : α) :
    Sweep.depth (intervals ps) x
      = ps.countP (fun q => q.peer.offset - q.synch ≤ x ∧ x ≤ q.peer.offset + q.synch) := by
  rw [Sweep.depth, intervals, countP_map]
  rfl

/-- A majority at `low` and a majority at `high` share a candidate. -/
theorem exists_common {a : Nat} (ha : 2 * a < ps.length) {low high : α}
    (hlow : (ps.length : Int) - a ≤ Sweep.depth (intervals ps) low)
    (hhigh : (ps.length : Int) - a ≤ Sweep.depth (intervals ps) high) :
    ∃ q ∈ ps, (q.peer.offset - q.synch ≤ low ∧ low ≤ q.peer.offset + q.synch)
      ∧ q.peer.offset - q.synch ≤ high ∧ high ≤ q.peer.offset + q.synch := by
  rw [depth_intervals] at hlow hhigh
  obtain ⟨q, hq, hql, hqh⟩ := exists_mem_of_countP
    (fun q : PeerSelect α => q.peer.offset - q.synch ≤ low ∧ low ≤ q.peer.offset + q.synch)
    (fun q => q.peer.offset - q.synch ≤ high ∧ high ≤ q.peer.offset + q.synch) ps (by omega)
  exact ⟨q, hq, of_decide_eq_true hql, of_decide_eq_true hqh⟩

theorem countP_overlaps_ge {low high : α} (hlt : low < high) :
    Sweep.depth (intervals ps) low ≤ ps.countP (fun q => Overlaps low high q) := by
  rw [depth_intervals]
  apply countP_mono_left
  intro q _ hq
  obtain ⟨hge, hle⟩ := of_decide_eq_true hq
  exact decide_eq_true ⟨hlt, hle, hge.trans hlt.le⟩

/-- What `intersect` returns: the least consistent number of falsetickers with
    the bounds of its round, or bounds out of order. -/
theorem intersect_spec [IsStrictOrderedRing α] (hpos : ∀ q ∈ ps, 0 < q.synch)
    (hdistinct : ((endpoints ps).map Endpoint.val).Nodup) :
    (∃ a, IsLeast {a | Consistent ps a} a
        ∧ (intersect ps.length (10 ^ 9) (-10 ^ 9) (endpoints ps)).1 = a
        ∧ IsLeast {x | (ps.length : Int) - a ≤ Sweep.depth (intervals ps) x} (bounds ps).1
        ∧ IsGreatest {x | (ps.length : Int) - a ≤ Sweep.depth (intervals ps) x} (bounds ps).2)
      ∨ ((∀ a, ¬ Consistent ps a) ∧ (bounds ps).2 ≤ (bounds ps).1) := by
  have hinit : (-10 ^ 9 : α) ≤ 10 ^ 9 := by
    linarith
  have hends := sortedEnds_sort ps hpos hdistinct
  rcases hends.intersectLoop_spec ps.length (ps.length + 1) 0 (10 ^ 9) (-10 ^ 9) (by omega) hinit
    with ⟨a, lo, hi, -, ha, hagree, hfirst, heq⟩ | ⟨hnone, hle⟩
  · left
    obtain ⟨x, y, -, hx, -⟩ := id hagree
    have hround := hends.round (show (0 : Int) < (ps.length : Int) - a by omega) lo hi ⟨x, hx⟩
    refine ⟨a, ⟨⟨ha, hagree⟩, ?_⟩, ?_, ?_, ?_⟩
    · intro b hb
      by_contra hlt
      exact hfirst b (Nat.zero_le b) (not_le.mp hlt) hb.2
    · rw [intersect, heq]
    · rw [bounds, intersect, heq]
      exact hround.1
    · rw [bounds, intersect, heq]
      exact hround.2
  · right
    exact ⟨fun a ha => hnone a (Nat.zero_le a) ha.1 ha.2, hle⟩

/-- The intersection algorithm and the cull. If some minority of falsetickers makes the others
    agree, the loop stops at the least such number, its bounds are the outermost points that enough
    candidates contain, one candidate contains both, and enough candidates overlap; these stay,
    apart from the PPS sources among them. Otherwise the bounds are out of order and only a
    candidate marked true stays. -/
theorem intersection_correct [IsStrictOrderedRing α] (c : Cfg α) (ps : List (PeerSelect α))
    (hpos : ∀ q ∈ ps, 0 < q.synch) (hdistinct : ((endpoints ps).map Endpoint.val).Nodup) :
    (∀ a, IsLeast {a | Consistent ps a} a →
        (intersect ps.length (10 ^ 9) (-10 ^ 9) (endpoints ps)).1 = a
        ∧ IsLeast {x | (ps.length : Int) - a ≤ Sweep.depth (intervals ps) x} (bounds ps).1
        ∧ IsGreatest {x | (ps.length : Int) - a ≤ Sweep.depth (intervals ps) x} (bounds ps).2
        ∧ (bounds ps).1 < (bounds ps).2
        ∧ (∃ q ∈ ps, q.peer.offset - q.synch ≤ (bounds ps).1
          ∧ (bounds ps).2 ≤ q.peer.offset + q.synch)
        ∧ (ps.length : Int) - a ≤ ps.countP (fun q => Overlaps (bounds ps).1 (bounds ps).2 q)
        ∧ ∀ q ∈ ps, Overlaps (bounds ps).1 (bounds ps).2 q →
          isTruechimer (bounds ps).1 (bounds ps).2 q
          ∧ (isPps c q = false → q ∈ truechimers c ps))
      ∧ ((∀ a, ¬ Consistent ps a) →
        (bounds ps).2 ≤ (bounds ps).1
        ∧ (∀ q ∈ ps, isTruechimer (bounds ps).1 (bounds ps).2 q → q.peer.flags.truechimer)
        ∧ ∀ q ∈ truechimers c ps, q.peer.flags.truechimer) := by
  constructor
  · intro a ha
    rcases intersect_spec ps hpos hdistinct with ⟨b, hb, hallow, hlow, hhigh⟩ | ⟨hnone, -⟩
    · obtain rfl : b = a := hb.unique ha
      obtain ⟨x, y, hxy, hx, hy⟩ := ha.1.2
      -- Two distinct points between the bounds keep them apart.
      have hlt : (bounds ps).1 < (bounds ps).2 := by
        refine lt_of_le_of_ne (hlow.2 hhigh.1) ?_
        intro heq
        have hx' := le_antisymm (hlow.2 hx) (heq ▸ hhigh.2 hx)
        have hy' := le_antisymm (hlow.2 hy) (heq ▸ hhigh.2 hy)
        exact hxy (hx'.symm.trans hy')
      obtain ⟨q, hq, hql, hqh⟩ := exists_common ps ha.1.1 hlow.1 hhigh.1
      have hcount := countP_overlaps_ge ps hlt
      have hdepth : (ps.length : Int) - b ≤ Sweep.depth (intervals ps) (bounds ps).1 := hlow.1
      refine ⟨hallow, hlow, hhigh, hlt, ⟨q, hq, hql.1, hqh.2⟩, by omega, ?_⟩
      intro r hr hover
      have htrue := (isTruechimer_iff _ _ r).mpr (.inl hover)
      refine ⟨htrue, ?_⟩
      intro hpps
      exact mem_filter.mpr ⟨hr, by rw [htrue, hpps]; rfl⟩
    · exact absurd ha.1 (hnone a)
  · intro hnone
    rcases intersect_spec ps hpos hdistinct with ⟨b, hb, -⟩ | ⟨-, hle⟩
    · exact absurd hb.1 (hnone b)
    · have hcull : ∀ q ∈ ps, isTruechimer (bounds ps).1 (bounds ps).2 q →
          q.peer.flags.truechimer := by
        intro q _ hq
        rcases (isTruechimer_iff _ _ q).mp hq with hover | hflag
        · exact absurd hover.1 (not_lt.mpr hle)
        · exact hflag
      refine ⟨hle, hcull, ?_⟩
      intro q hq
      obtain ⟨hq, htest⟩ := mem_filter.mp hq
      exact hcull q hq (Bool.and_eq_true_iff.mp htest).1

end Candidates

/-- Two servers that agree, and a third that is off by minutes. -/
def threeServers : List (PeerSelect ℚ) :=
  [{ peer := { offset := 0 }, synch := 2, error := 0 },
   { peer := { offset := 1 }, synch := 2, error := 0 },
   { peer := { offset := 100 }, synch := 1, error := 0 }]

/-- The three do not agree, so one falseticker is the least number. -/
theorem threeServers_least : IsLeast {a | Consistent threeServers a} 1 := by
  refine ⟨⟨by decide, -1, 2, by norm_num, by decide +kernel, by decide +kernel⟩, ?_⟩
  intro a ha
  by_contra hlt
  obtain rfl : a = 0 := by omega
  obtain ⟨-, x, -, -, hx, -⟩ := ha
  have hall : (intervals threeServers).length ≤ Sweep.depth (intervals threeServers) x := by
    simpa [intervals] using hx
  have hin := countP_eq_length.mp (le_antisymm countP_le_length hall)
  have hfirst := of_decide_eq_true (hin (0 - 2, 0 + 2) (by decide +kernel))
  have hlast := of_decide_eq_true (hin (100 - 1, 100 + 1) (by decide +kernel))
  linarith [hfirst.2, hlast.1]

/-- The third server is cast off, and the first two stay. -/
theorem intersection_correct_three :
    IsLeast {a | Consistent threeServers a} 1
      ∧ (intersect threeServers.length (10 ^ 9) (-10 ^ 9) (endpoints threeServers)).1 = 1
      ∧ bounds threeServers = (-1, 2)
      ∧ ∃ q ∈ threeServers, q.peer.offset - q.synch ≤ (bounds threeServers).1
          ∧ (bounds threeServers).2 ≤ q.peer.offset + q.synch := by
  have h := (intersection_correct defaultCfg threeServers (by decide +kernel)
    (by decide +kernel)).1 1 threeServers_least
  exact ⟨threeServers_least, h.1, by decide +kernel, h.2.2.2.2.1⟩

end NtpSuite
