import Mathlib.Data.List.GetD
import Mathlib.Data.List.TakeWhile

/-!
# Pieces of a List

A list that was cut into pieces, and the pieces put in order again as they come.

A piece is known by where it begins and by how long it is. The pieces that have come
are kept in the order in which they begin. A piece that comes is put before the first
one that does not begin before it. If all of them are pieces of one list, which are not
empty except perhaps the last one, then the ones that have come are kept in the order
of their numbers, and they abut on each other from the beginning to the last piece if
and only if none is missing.

## Main definitions

* `Segment`: Where a piece begins, and its length.
* `place`, `abuts`: What is done with the segments.
* `start`, `segmentAt`: The pieces of a list.
* `held`: The segments of some of the pieces, in order.
* `Solid`: Only the last piece may be empty.

## Theorems

* `before_behind_held`: Where a piece is put.
* `place_held`: One more piece.
* `abuts_held_iff`: When no piece is missing.
-/

namespace Tiling

open List

/-- Where a piece begins, and its length. -/
structure Segment where
  offset : Nat
  count : Nat
deriving DecidableEq, Repr

/-- The segments that begin before an offset, up to the first that does not. -/
def before (offset : Nat) (l : List Segment) : List Segment :=
  l.takeWhile fun x => decide (x.offset < offset)

/-- The segments from the first one on that does not begin before an offset. -/
def behind (offset : Nat) (l : List Segment) : List Segment :=
  l.dropWhile fun x => decide (x.offset < offset)

/-- A segment is put in its place. -/
def place (x : Segment) (l : List Segment) : List Segment :=
  before x.offset l ++ x :: behind x.offset l

/-- Each segment begins where the one before it ends, the first one at `e`. -/
def abuts (e : Nat) : List Segment → Bool
  | [] => true
  | x :: l => e == x.offset && abuts (x.offset + x.count) l

variable {α : Type*}

/-- Where a piece begins. -/
def start (cs : List (List α)) (i : Nat) : Nat := (cs.take i).flatten.length

/-- A piece. -/
def piece (cs : List (List α)) (i : Nat) : List α := cs.getD i []

/-- The segment of a piece. -/
def segmentAt (cs : List (List α)) (i : Nat) : Segment := ⟨start cs i, (piece cs i).length⟩

/-- Only the last piece may be empty. -/
def Solid (cs : List (List α)) : Prop := ∀ i, i + 1 < cs.length → piece cs i ≠ []

/-- The segments of some pieces out of a range, in the order of their numbers. -/
def heldFrom (cs : List (List α)) (taken : List Nat) (k m : Nat) : List Segment :=
  ((List.range' k m).filter (· ∈ taken)).map (segmentAt cs)

/-- The segments of some of the pieces, in the order of their numbers. -/
def held (cs : List (List α)) (taken : List Nat) : List Segment := heldFrom cs taken 0 cs.length

variable {cs : List (List α)} {taken : List Nat} {i j k m : Nat}

theorem start_zero : start cs 0 = 0 := rfl

theorem start_succ (hi : i < cs.length) : start cs (i + 1) = start cs i + (piece cs i).length := by
  unfold start piece
  rw [take_add_one, flatten_append, getD_eq_getElem _ _ hi,
    List.getElem?_eq_getElem hi]
  simp

theorem start_length : start cs cs.length = cs.flatten.length := by
  unfold start
  rw [take_length]

theorem start_append (x : List (List α)) (hi : i ≤ cs.length) : start (cs ++ x) i = start cs i := by
  unfold start
  rw [take_append_of_le_length hi]

theorem piece_append (x : List (List α)) (hi : i < cs.length) : piece (cs ++ x) i = piece cs i := by
  unfold piece
  rw [getD_append _ _ _ _ hi]

theorem piece_length_append (x : List α) : piece (cs ++ [x]) cs.length = x := by
  unfold piece
  simp

theorem start_mono (h : i ≤ j) : start cs i ≤ start cs j := by
  unfold start
  obtain ⟨rest, hrest⟩ := take_prefix_take_left (l := cs) h
  rw [← hrest, flatten_append, length_append]
  exact Nat.le_add_right _ _

theorem start_lt (hs : Solid cs) (hij : i < j) (hj : j < cs.length) : start cs i < start cs j := by
  have hpos : 0 < (piece cs i).length := length_pos_iff.mpr (hs i (by omega))
  calc start cs i < start cs i + (piece cs i).length := by omega
    _ = start cs (i + 1) := (start_succ (by omega)).symm
    _ ≤ start cs j := start_mono hij

theorem start_inj (hs : Solid cs) (hi : i < cs.length) (hj : j < cs.length)
    (h : start cs i = start cs j) : i = j := by
  rcases lt_trichotomy i j with hlt | heq | hgt
  · exact absurd h (start_lt hs hlt hj).ne
  · exact heq
  · exact absurd h (start_lt hs hgt hi).ne'

/-- A piece ends before the next one begins. -/
theorem segment_end_le (hi : i < cs.length) (hij : i < j) :
    start cs i + (piece cs i).length ≤ start cs j := by
  rw [← start_succ hi]
  exact start_mono hij

theorem mem_heldFrom {x : Segment} :
    x ∈ heldFrom cs taken k m ↔ ∃ i, (k ≤ i ∧ i < k + m) ∧ i ∈ taken ∧ segmentAt cs i = x := by
  simp [heldFrom, and_assoc]

/-- The pieces before a number, the piece with the number if it is there, and the ones behind it. -/
theorem held_split (taken : List Nat) (hi : i < cs.length) :
    held cs taken = heldFrom cs taken 0 i ++
      ((if i ∈ taken then [segmentAt cs i] else []) ++
        heldFrom cs taken (i + 1) (cs.length - (i + 1))) := by
  have hrange : List.range' 0 cs.length =
      List.range' 0 i ++ (i :: List.range' (i + 1) (cs.length - (i + 1))) := by
    have hsplit := List.range'_append_1 (s := 0) (m := i) (n := cs.length - i)
    rw [Nat.zero_add, Nat.add_sub_cancel' hi.le] at hsplit
    rw [← hsplit, ← List.range'_succ]
    congr 2
    omega
  unfold held heldFrom
  rw [hrange]
  by_cases hmem : i ∈ taken
  · simp [hmem]
  · simp [hmem]

theorem takeWhile_append_stop {p : α → Bool} {l k : List α} (h : ∀ c ∈ l, p c = true)
    (hstop : ∀ c ∈ k.head?, p c = false) : (l ++ k).takeWhile p = l ∧ (l ++ k).dropWhile p = k := by
  rw [takeWhile_append_of_pos h, dropWhile_append_of_pos h]
  cases k with
  | nil => simp
  | cons c k => simp [hstop c rfl]

/-- The segments are parted at an offset. -/
theorem before_behind {offset : Nat} {l l' : List Segment} (h : ∀ x ∈ l, x.offset < offset)
    (h' : ∀ x ∈ l', offset ≤ x.offset) :
    before offset (l ++ l') = l ∧ behind offset (l ++ l') = l' := by
  have hpos : ∀ x ∈ l, decide (x.offset < offset) = true := fun x hx => decide_eq_true (h x hx)
  refine takeWhile_append_stop hpos fun x hx => ?_
  have hle := h' x (mem_of_mem_head? hx)
  simpa using hle

/-- Where a piece is put: behind the pieces with smaller numbers. -/
theorem before_behind_held (taken : List Nat) (hs : Solid cs) (hi : i < cs.length) :
    before (start cs i) (held cs taken) = heldFrom cs taken 0 i ∧
      behind (start cs i) (held cs taken) =
        (if i ∈ taken then [segmentAt cs i] else []) ++
          heldFrom cs taken (i + 1) (cs.length - (i + 1)) := by
  rw [held_split taken hi]
  apply before_behind
  · intro x hx
    obtain ⟨k, ⟨-, hk⟩, -, rfl⟩ := mem_heldFrom.mp hx
    exact start_lt hs (by omega) hi
  · intro x hx
    rcases mem_append.mp hx with hx | hx
    · split_ifs at hx with hmem
      · rw [mem_singleton.mp hx]
        exact le_rfl
      · cases hx
    · obtain ⟨k, ⟨hk, -⟩, -, rfl⟩ := mem_heldFrom.mp hx
      exact start_mono (by omega)

theorem heldFrom_concat (h : i < k ∨ k + m ≤ i) :
    heldFrom cs (taken ++ [i]) k m = heldFrom cs taken k m := by
  unfold heldFrom
  congr 1
  apply filter_congr
  intro j hj
  rw [mem_range'_1] at hj
  have hne : j ≠ i := by omega
  simp [hne]

/-- One more piece. -/
theorem place_held (hs : Solid cs) (hi : i < cs.length) (hnew : i ∉ taken) :
    place (segmentAt cs i) (held cs taken) = held cs (taken ++ [i]) := by
  obtain ⟨hbefore, hbehind⟩ := before_behind_held taken hs hi
  have hgoal := held_split (taken ++ [i]) hi
  rw [if_pos (by simp), heldFrom_concat (by omega), heldFrom_concat (by omega)] at hgoal
  rw [if_neg hnew] at hbehind
  unfold place
  rw [show (segmentAt cs i).offset = start cs i from rfl, hbefore, hbehind, hgoal]
  rfl

/-- The pieces of a range abut if and only if none is missing, if the last one is there. -/
theorem abuts_heldFrom_iff (hs : Solid cs) (hend : k + m = cs.length)
    (hlast : m ≠ 0 → k + m - 1 ∈ taken) :
    abuts (start cs k) (heldFrom cs taken k m) = true ↔ ∀ i, k ≤ i → i < k + m → i ∈ taken := by
  induction m generalizing k with
  | zero =>
    refine ⟨fun _ i hle hlt => by omega, fun _ => ?_⟩
    rfl
  | succ m ih =>
    by_cases hk : k ∈ taken
    · have hrest := ih (k := k + 1) (by omega) (by
        intro hm
        have := hlast (by omega)
        rwa [show k + 1 + m - 1 = k + (m + 1) - 1 by omega])
      have hcons : heldFrom cs taken k (m + 1) =
          segmentAt cs k :: heldFrom cs taken (k + 1) m := by
        simp [heldFrom, List.range'_succ, hk]
      rw [hcons]
      simp only [abuts, segmentAt, beq_self_eq_true, Bool.true_and]
      rw [← start_succ (by omega), hrest]
      constructor
      · intro h i hle hlt
        rcases Nat.eq_or_lt_of_le hle with rfl | hgt
        · exact hk
        · exact h i (by omega) (by omega)
      · intro h i hle hlt
        exact h i (by omega) (by omega)
    · -- The first piece that is there begins behind the one that is missing.
      have hskip : heldFrom cs taken k (m + 1) = heldFrom cs taken (k + 1) m := by
        simp [heldFrom, List.range'_succ, hk]
      have hm : m ≠ 0 := by
        rintro rfl
        exact hk (hlast (by omega))
      have hmem : segmentAt cs (k + m) ∈ heldFrom cs taken (k + 1) m :=
        mem_heldFrom.mpr ⟨k + m, by omega, hlast (by omega), rfl⟩
      rw [hskip]
      refine iff_of_false ?_ fun h => hk (h k le_rfl (by omega))
      intro habuts
      cases hlist : heldFrom cs taken (k + 1) m with
      | nil =>
        rw [hlist] at hmem
        cases hmem
      | cons x l =>
        rw [hlist] at habuts
        obtain ⟨j, ⟨hj, hj'⟩, -, rfl⟩ := mem_heldFrom.mp (hlist ▸ mem_cons_self)
        simp only [abuts, Bool.and_eq_true, beq_iff_eq] at habuts
        exact absurd habuts.1 (start_lt hs (by omega) (by omega)).ne

/-- When no piece is missing. -/
theorem abuts_held_iff (hs : Solid cs) (hlast : cs.length - 1 ∈ taken) :
    abuts 0 (held cs taken) = true ↔ ∀ i < cs.length, i ∈ taken := by
  have h := abuts_heldFrom_iff (k := 0) (m := cs.length) hs (Nat.zero_add _) fun _ => by
    rwa [Nat.zero_add]
  rw [start_zero] at h
  rw [held, h]
  simp

end Tiling
