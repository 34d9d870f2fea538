import NtpSuite.Core.Recvbuff
import NtpSuite.Lib.Run

/-!
# The Queue of Full Buffers

What the FIFO of receive buffers does, and where it goes wrong.

`Queues s xs fs` says that the buffers are in order: the FIFO leads through
`xs` with the tail pointer where it belongs, and the free list through `fs`.
Every operation is a lemma about it. There is one exception. To take a buffer
out of the middle, `UNLINK_MID_FIFO` repairs the tail pointer as if it had
been the first: it clears the pointer when the last buffer goes, and sets it to
the head of the FIFO when the last but one does. Both are wrong if there is a
buffer before it that stays.

`PurgeSafe` is the condition under which that does not happen.

## Main definitions

* `Queues`: The FIFO and the free list are in order.
* `PurgeSafe`: A purge does not get the tail pointer wrong.
* `RecvInv`: What is known of every state.

## Theorems

* `unlinkMidFifo_queues`: A buffer is taken out of the middle.
* `purgeLoop_queues`: What a purge does.
* `recvStep_inv`: Every call keeps the invariant.
* `recv_queue_fifo`: The queue of full buffers is a queue.
-/

namespace NtpSuite

open Linked Function List Option

/-- The FIFO and the free list are in order. -/
structure Queues (s : RecvBuffs) (xs fs : List Nat) : Prop where
  full : Leads s.link s.phead xs
  tail : s.pptail = tailLoc xs
  free : Leads s.link s.free_recv_list fs
  sound : s.aborted = false

/-- All buffers on both lists are different and were allocated. -/
structure Apart (total : Nat) (ps : List Nat) : Prop where
  nodup : ps.Nodup
  lt : ∀ p ∈ ps, p < total

variable {hs ks ps ys : List Nat}

/-- Different numbers below a bound are not more than the bound. -/
theorem Apart.length_le {total : Nat} (h : Apart total ps) : ps.length ≤ total := by
  have hsub : ps ⊆ List.range total := fun p hp => mem_range.mpr (h.lt p hp)
  have hle := (List.Nodup.subperm h.nodup hsub).length_le
  rwa [length_range] at hle

/-! ### The checks -/

theorem scanTail_eq {link : Nat → Option Nat} {h : Option Nat} {xs : List Nat}
    (hl : Leads link h xs) {n : Nat} (hn : xs.length < n) (loc : Loc Nat) :
    scanTail link n h loc = xs.dropLast.getLast?.elim loc .link := by
  induction xs generalizing h n loc with
  | nil =>
    obtain ⟨m, rfl⟩ := Nat.exists_eq_succ_of_ne_zero (show n ≠ 0 by omega)
    rw [leads_nil.mp hl]
    rfl
  | cons x xs ih =>
    obtain ⟨m, rfl⟩ := Nat.exists_eq_succ_of_ne_zero (show n ≠ 0 by omega)
    obtain ⟨rfl, htail⟩ := hl
    simp only [length_cons] at hn
    simp only [scanTail]
    rw [ih htail (by omega), htail.head_eq]
    cases xs with
    | nil => rfl
    | cons y ys =>
      simp only [List.head?_cons, isSome_some, if_true, dropLast_cons_cons, List.getLast?_cons]
      cases (y :: ys).dropLast.getLast? <;> rfl

variable {s : RecvBuffs} {xs fs : List Nat} {p : Nat} (b : RecvBuild) {x : Nat}

theorem Queues.check (h : Queues s xs fs) (hlen : xs.length ≤ s.total_recvbufs) (b : RecvBuild) :
    checkFifo b s = s := by
  have hscan := scanTail_eq h.full (show xs.length < s.total_recvbufs + 1 by omega) .head
  have hcheck : checkGenFifoConsistency s = true := by
    unfold checkGenFifoConsistency
    rw [hscan, h.tail, h.full.head_eq]
    cases xs using List.reverseRecOn with
    | nil => rfl
    | append_singleton xs x _ => simp [Linked.after]
  unfold checkFifo
  simp [hcheck]

/-! ### The macros -/

/-- Only pointers have changed. -/
structure Relinked (s t : RecvBuffs) : Prop where
  fd : t.fd = s.fd
  total : t.total_recvbufs = s.total_recvbufs
  full : t.full_recvbufs = s.full_recvbufs
  free : t.free_recvbufs = s.free_recvbufs

theorem Relinked.trans {t u : RecvBuffs} (hst : Relinked s t) (htu : Relinked t u) :
    Relinked s u where
  fd := htu.fd.trans hst.fd
  total := htu.total.trans hst.total
  full := htu.full.trans hst.full
  free := htu.free.trans hst.free

theorem appendFifo_queues (h : Queues s xs fs) (hnodup : (p :: (xs ++ fs)).Nodup) :
    Queues (appendFifo s p) (xs ++ [p]) fs ∧ Relinked s (appendFifo s p) := by
  simp only [nodup_cons, mem_append, not_or, nodup_append] at hnodup
  obtain ⟨⟨hpx, hpf⟩, hx, hf, hdisj⟩ := hnodup
  have hfull := (leads_update (v := none) hpx).mpr h.full
  have hfree := (leads_update (v := none) hpf).mpr h.free
  have hend : Leads (update s.link p none) (some p) [p] := by simp
  have htail := h.tail
  unfold appendFifo
  cases xs using List.reverseRecOn with
  | nil =>
    simp only [htail, tailLoc_nil]
    exact ⟨⟨hend, rfl, hfree, h.sound⟩, rfl, rfl, rfl, rfl⟩
  | append_singleton xs last _ =>
    have hnew : (xs ++ last :: [p]).Nodup := by
      rw [append_cons]
      exact nodup_append_comm.mp (nodup_cons.mpr ⟨hpx, hx⟩)
    have hlinked := hfull.update_mid hend hnew
    have hread := hfull.read_after
    have hread' := hlinked.read_after
    rw [List.head?_cons] at hread hread'
    simp only [htail, tailLoc_append, hread, hread', map_some]
    refine ⟨⟨?_, ?_, ?_, h.sound⟩, rfl, rfl, rfl, rfl⟩
    · rw [append_assoc]
      exact hlinked
    · rw [tailLoc_append, after_append]
    · exact (leads_update fun hmem => hdisj last (by simp) last hmem rfl).mpr hfree

theorem linkFifo_queues (h : Queues s xs fs) (hapart : Apart s.total_recvbufs (p :: (xs ++ fs))) :
    Queues (linkFifo b s p) (xs ++ [p]) fs ∧ Relinked s (linkFifo b s p) := by
  have hlen := hapart.length_le
  simp only [length_cons, length_append] at hlen
  obtain ⟨hq, hrel⟩ := appendFifo_queues h hapart.nodup
  unfold linkFifo
  rw [h.check (by omega), hq.check (by rw [hrel.total]; simp; omega)]
  exact ⟨hq, hrel⟩

theorem repairTail_pptail (s : RecvBuffs) (p : Nat) (next : Option Nat) :
    (repairTail s p next).pptail =
      if next = none then none
      else if s.pptail = some (.link p) then some .head
      else s.pptail := by
  unfold repairTail
  split_ifs <;> rfl

theorem repairTail_same (s : RecvBuffs) (p : Nat) (next : Option Nat) :
    repairTail s p next = { s with pptail := (repairTail s p next).pptail } := by
  unfold repairTail
  split_ifs <;> rfl

/-- The repair is right for the first entry and for those with two others
    behind them, and for no others. -/
theorem repair_iff (hnodup : (ks ++ x :: ys).Nodup) :
    (if ys.head? = none then none
      else if tailLoc (ks ++ x :: ys) = some (.link x) then some .head
      else tailLoc (ks ++ x :: ys)) = tailLoc (ks ++ ys) ↔ ks = [] ∨ 2 ≤ ys.length := by
  cases ys using List.reverseRecOn with
  | nil =>
    -- The last entry: the pointer is cleared.
    simp [eq_comm]
  | append_singleton ys y _ =>
    cases ys using List.reverseRecOn with
    | nil =>
      -- The last but one: the pointer is set to the head.
      simp [eq_comm]
    | append_singleton ys a _ =>
      have hax : a ≠ x := by
        rintro rfl
        simp [nodup_append] at hnodup
      have hold : tailLoc (ks ++ x :: (ys ++ [a] ++ [y])) = some (.link a) := by
        have hlist : ks ++ x :: (ys ++ [a] ++ [y]) = (ks ++ x :: ys) ++ [a, y] := by simp
        rw [hlist, tailLoc_append_two]
      have hnew : tailLoc (ks ++ (ys ++ [a] ++ [y])) = some (.link a) := by
        have hlist : ks ++ (ys ++ [a] ++ [y]) = (ks ++ ys) ++ [a, y] := by simp
        rw [hlist, tailLoc_append_two]
      rw [hold, hnew]
      simp [hax]

theorem unlinkAt_queues (h : Queues s (ks ++ x :: ys) fs)
    (hnodup : (ks ++ x :: ys ++ fs).Nodup) (hsafe : ks = [] ∨ 2 ≤ ys.length) :
    Queues (unlinkAt s x (after ks)) (ks ++ ys) fs ∧ Relinked s (unlinkAt s x (after ks)) := by
  obtain ⟨hx, hf, hdisj⟩ := nodup_append.mp hnodup
  have hrest : Leads s.link (s.link x) ys := h.full.rest.2
  have hless : (ks ++ ys).Nodup := hx.sublist (by simp)
  have hfull := h.full.splice hrest hless
  have hapart : ∀ k ∈ ks, k ∉ fs := fun k hk hmem => hdisj k (by simp [hk]) k hmem rfl
  have hfree := (leads_write (h := s.phead) (v := s.link x) hapart).mpr h.free
  unfold unlinkAt
  simp only
  rw [hfull.read_after, repairTail_same]
  refine ⟨⟨hfull, ?_, hfree, h.sound⟩, rfl, rfl, rfl, rfl⟩
  simp only [repairTail_pptail, h.tail]
  exact (repair_iff hx).mpr hsafe

/-- The link of an entry that is on neither list does not matter. -/
theorem maybeZLists_queues (h : Queues s xs fs) (hp : p ∉ xs ++ fs) :
    Queues (maybeZLists b s p) xs fs ∧ Relinked s (maybeZLists b s p) := by
  simp only [mem_append, not_or] at hp
  unfold maybeZLists
  split_ifs
  · exact ⟨⟨(leads_update hp.1).mpr h.full, h.tail, (leads_update hp.2).mpr h.free, h.sound⟩,
      rfl, rfl, rfl, rfl⟩
  · exact ⟨h, rfl, rfl, rfl, rfl⟩

theorem unlinked_queues (ks : List Nat) (b : RecvBuild)
    (h : Queues s (ks ++ x :: ys) fs) (hapart : Apart s.total_recvbufs (ks ++ x :: ys ++ fs))
    (hsafe : ks = [] ∨ 2 ≤ ys.length) :
    Queues (checkFifo b (maybeZLists b (unlinkAt s x (after ks)) x)) (ks ++ ys) fs ∧
      Relinked s (checkFifo b (maybeZLists b (unlinkAt s x (after ks)) x)) := by
  have hlen := hapart.length_le
  have hx : x ∉ ks ++ ys ++ fs := by
    have hnodup := hapart.nodup
    simp only [append_assoc, cons_append, nodup_middle, nodup_cons] at hnodup
    simpa using hnodup.1
  obtain ⟨hq, hrel⟩ := unlinkAt_queues h hapart.nodup hsafe
  obtain ⟨hq', hrel'⟩ := maybeZLists_queues b hq hx
  simp only [length_append, length_cons] at hlen
  rw [hq'.check (by rw [hrel'.total, hrel.total]; simp; omega)]
  exact ⟨hq', hrel.trans hrel'⟩

theorem unlinkFifo_queues (h : Queues s (x :: xs) fs)
    (hapart : Apart s.total_recvbufs (x :: xs ++ fs)) :
    (unlinkFifo b s).2 = some x ∧ Queues (unlinkFifo b s).1 xs fs ∧
      Relinked s (unlinkFifo b s).1 := by
  have hlen := hapart.length_le
  simp only [length_append, length_cons] at hlen
  unfold unlinkFifo
  simp only [h.check (show (x :: xs).length ≤ s.total_recvbufs by simp; omega), h.full.1]
  exact ⟨trivial, unlinked_queues [] b h hapart (.inl rfl)⟩

theorem unlinkFifo_nil (h : Queues s [] fs) : unlinkFifo b s = (s, none) := by
  unfold unlinkFifo
  simp only [h.check (Nat.zero_le _), leads_nil.mp h.full]

/-- The search finds the address of the pointer to the entry. -/
theorem findEntry_eq (js : List Nat) (h : Leads s.link s.phead (js ++ ks ++ x :: ys))
    (hx : x ∉ ks) {n : Nat} (hn : ks.length < n) :
    findEntry s x n (after js) = .at (after (js ++ ks)) := by
  induction ks generalizing js n with
  | nil =>
    obtain ⟨m, rfl⟩ := Nat.exists_eq_succ_of_ne_zero (show n ≠ 0 by omega)
    rw [append_nil] at h
    simp [findEntry, h.read_after]
  | cons k ks ih =>
    obtain ⟨m, rfl⟩ := Nat.exists_eq_succ_of_ne_zero (show n ≠ 0 by omega)
    simp only [mem_cons, not_or] at hx
    simp only [length_cons] at hn
    have hsplit : js ++ k :: ks ++ x :: ys = js ++ k :: (ks ++ x :: ys) := by simp
    rw [hsplit] at h
    have hread := h.read_after
    have hlink := h.link_eq
    have hnext : (s.link k).isSome := by
      rw [hlink]
      cases ks <;> rfl
    have hrec := ih (js ++ [k]) (n := m) (by simpa using h) hx.2 (by omega)
    rw [after_append] at hrec
    simp only [findEntry, hread, List.head?_cons, hnext, if_true, if_neg (Ne.symm hx.1), hrec]
    simp

theorem unlinkMidFifo_queues (h : Queues s (ks ++ x :: ys) fs)
    (hapart : Apart s.total_recvbufs (ks ++ x :: ys ++ fs)) (hsafe : ks = [] ∨ 2 ≤ ys.length) :
    (unlinkMidFifo b s x).2 = some x ∧ Queues (unlinkMidFifo b s x).1 (ks ++ ys) fs ∧
      Relinked s (unlinkMidFifo b s x).1 := by
  have hlen := hapart.length_le
  simp only [length_append, length_cons] at hlen
  have hx : x ∉ ks := by
    have hnodup := hapart.nodup
    simp only [append_assoc, cons_append, nodup_middle, nodup_cons] at hnodup
    exact fun hmem => hnodup.1 (by simp [hmem])
  have hfind := findEntry_eq [] h.full hx
    (show ks.length < s.total_recvbufs + 1 by omega)
  have hcheck := h.check (show (ks ++ x :: ys).length ≤ s.total_recvbufs by simp; omega) b
  rw [after_nil] at hfind
  unfold unlinkMidFifo
  simp only [hcheck, hfind]
  exact ⟨trivial, unlinked_queues ks b h hapart hsafe⟩

/-! ### The operations -/

/-- The buffers are in order, with `xs` waiting, `fs` free and `hs` held by
    somebody, and the counters count them. -/
structure Stocked (s : RecvBuffs) (xs fs hs : List Nat) : Prop where
  queues : Queues s xs fs
  apart : Apart s.total_recvbufs (xs ++ fs ++ hs)
  full : s.full_recvbufs = xs.length
  free : s.free_recvbufs = fs.length

theorem Stocked.lists (h : Stocked s xs fs hs) :
    Apart s.total_recvbufs (xs ++ fs) where
  nodup := (nodup_append.mp h.apart.nodup).1
  lt := fun p hp => h.apart.lt p (mem_append_left hs hp)

theorem Apart.perm {total : Nat} {qs : List Nat} (h : Apart total ps) (hp : ps.Perm qs) :
    Apart total qs where
  nodup := hp.nodup_iff.mp h.nodup
  lt := fun p hmem => h.lt p (hp.mem_iff.mpr hmem)

theorem createBuffer_stocked (h : Stocked s xs fs hs) :
    Stocked (createBuffer s) xs (s.total_recvbufs :: fs) hs := by
  have hnew : ∀ ps ⊆ xs ++ fs ++ hs, s.total_recvbufs ∉ ps := fun ps hsub hmem =>
    absurd (h.apart.lt _ (hsub hmem)) (lt_irrefl _)
  have hxs := hnew xs (by simp)
  have hfs := hnew fs (by simp)
  refine ⟨⟨?_, h.queues.tail, ?_, h.queues.sound⟩, ⟨?_, ?_⟩, h.full, ?_⟩
  · exact (leads_update hxs).mpr h.queues.full
  · refine ⟨rfl, ?_⟩
    simp only [createBuffer, update_self]
    exact (leads_update hfs).mpr h.queues.free
  · rw [append_assoc, cons_append, nodup_middle, ← append_assoc, nodup_cons]
    exact ⟨hnew _ (fun _ hp => hp), h.apart.nodup⟩
  · intro p hp
    simp only [createBuffer]
    by_cases heq : p = s.total_recvbufs
    · omega
    · have hold := h.apart.lt p (by simpa [heq] using hp)
      omega
  · simp [createBuffer, h.free]

theorem createBuffers_stocked (h : Stocked s xs fs hs) (n : Nat) :
    ∃ fs', Stocked (createBuffers s n) xs fs' hs ∧ (createBuffers s n).fd = s.fd := by
  have hturns : ∀ m (t : RecvBuffs) fs, Stocked t xs fs hs →
      ∃ fs', Stocked (createBuffer^[m] t) xs fs' hs ∧ (createBuffer^[m] t).fd = t.fd := by
    intro m
    induction m with
    | zero => exact fun t fs ht => ⟨fs, ht, rfl⟩
    | succ m ih =>
      intro t fs ht
      obtain ⟨fs', hfs', hfd⟩ := ih _ _ (createBuffer_stocked ht)
      exact ⟨fs', hfs', hfd⟩
  have hstart : Stocked { s with buffer_shortfall := 0 } xs fs hs :=
    ⟨⟨h.queues.full, h.queues.tail, h.queues.free, h.queues.sound⟩, h.apart, h.full, h.free⟩
  obtain ⟨fs', hfs', hfd⟩ := hturns (n + s.buffer_shortfall) _ fs hstart
  have hq := hfs'.queues
  exact ⟨fs', ⟨⟨hq.full, hq.tail, hq.free, hq.sound⟩, hfs'.apart, hfs'.full, hfs'.free⟩, hfd⟩

theorem freerecvbuf_queues (h : Queues s xs fs) (hp : p ∉ xs ++ fs) :
    Queues (freerecvbuf s p) xs (p :: fs) := by
  simp only [mem_append, not_or] at hp
  refine ⟨(leads_update hp.1).mpr h.full, h.tail, ⟨rfl, ?_⟩, h.sound⟩
  simp only [freerecvbuf, update_self]
  exact (leads_update hp.2).mpr h.free

theorem getFreeRecvBuffer_stocked (h : Stocked s xs fs hs) :
    ∃ fs', Stocked (getFreeRecvBuffer b s).1 xs fs' ((getFreeRecvBuffer b s).2.toList ++ hs) ∧
      ∀ p ∈ xs, (getFreeRecvBuffer b s).1.fd p = s.fd p := by
  have hq := h.queues
  unfold getFreeRecvBuffer
  cases fs with
  | nil =>
    simp only [leads_nil.mp hq.free]
    exact ⟨[], ⟨⟨hq.full, hq.tail, rfl, hq.sound⟩, h.apart, h.full, h.free⟩, fun _ _ => trivial⟩
  | cons f fs =>
    obtain ⟨hhead, hrest⟩ := hq.free
    have hnodup := h.lists.nodup
    rw [nodup_middle, nodup_cons] at hnodup
    simp only [hhead]
    have hq' : Queues { s with free_recv_list := s.link f } xs fs :=
      ⟨hq.full, hq.tail, hrest, hq.sound⟩
    obtain ⟨hz, hrel⟩ := maybeZLists_queues b hq' hnodup.1
    have hf := hnodup.1
    simp only [mem_append, not_or] at hf
    refine ⟨fs, ⟨⟨?_, hz.tail, ?_, hz.sound⟩, ?_, ?_, ?_⟩, ?_⟩
    · exact (leads_update hf.1).mpr hz.full
    · exact (leads_update hf.2).mpr hz.free
    · have htotal : (maybeZLists b { s with free_recv_list := s.link f } f).total_recvbufs =
          s.total_recvbufs := hrel.total
      simp only [initialiseBuffer, htotal, toList_some, singleton_append]
      apply h.apart.perm
      simp only [append_assoc, cons_append]
      exact perm_middle.symm.append_left xs
    · exact hrel.full.trans h.full
    · show (maybeZLists b { s with free_recv_list := s.link f } f).free_recvbufs - 1 = fs.length
      rw [hrel.free]
      simp [h.free]
    · intro p hp
      simp only [initialiseBuffer, hrel.fd]
      apply update_of_ne
      rintro rfl
      exact hf.1 hp

theorem addFullRecvBuffer_stocked (h : Stocked s xs fs (p :: hs)) :
    Stocked (addFullRecvBuffer b s p) (xs ++ [p]) fs hs ∧ (addFullRecvBuffer b s p).fd = s.fd := by
  have hperm : (xs ++ fs ++ p :: hs).Perm (p :: (xs ++ fs) ++ hs) := perm_middle
  have hapart : Apart s.total_recvbufs (p :: (xs ++ fs)) := by
    have hall := h.apart.perm hperm
    exact ⟨(nodup_append.mp hall.nodup).1, fun q hq => hall.lt q (mem_append_left hs hq)⟩
  obtain ⟨hq, hrel⟩ := linkFifo_queues b h.queues hapart
  refine ⟨⟨⟨hq.full, hq.tail, hq.free, hq.sound⟩, ?_, ?_, hrel.free.trans h.free⟩, hrel.fd⟩
  · have htotal : (addFullRecvBuffer b s p).total_recvbufs = s.total_recvbufs := hrel.total
    rw [htotal]
    apply h.apart.perm (hperm.trans _)
    simp only [append_assoc, cons_append]
    exact perm_middle.symm
  · simp [addFullRecvBuffer, hrel.full, h.full]

/-- `get_full_recv_buffer`: the first buffer that waits is handed out. -/
theorem getFullRecvBuffer_stocked (h : Stocked s xs fs hs) :
    (getFullRecvBuffer b s).2 = xs.head? ∧
      (∃ fs', Stocked (getFullRecvBuffer b s).1 xs.tail fs' (xs.head?.toList ++ hs)) ∧
      (getFullRecvBuffer b s).1.fd = s.fd := by
  -- More buffers may have been allocated before.
  obtain ⟨t, fs', hgrown, ht, hfd⟩ : ∃ t fs',
      (if b.signaled_io && (s.free_recv_list.isNone || 0 < s.buffer_shortfall) then
        createBuffers s RECV_INC
      else s) = t ∧ Stocked t xs fs' hs ∧ t.fd = s.fd := by
    split_ifs
    · obtain ⟨fs', hfs', hfd⟩ := createBuffers_stocked h RECV_INC
      exact ⟨_, fs', rfl, hfs', hfd⟩
    · exact ⟨s, fs, rfl, h, rfl⟩
  unfold getFullRecvBuffer
  simp only [hgrown]
  cases xs with
  | nil =>
    rw [unlinkFifo_nil b ht.queues]
    exact ⟨rfl, ⟨fs', ht⟩, hfd⟩
  | cons x xs =>
    obtain ⟨hx, hq, hrel⟩ := unlinkFifo_queues b ht.queues ht.lists
    simp only [hx, isSome_some, if_true]
    refine ⟨rfl, ⟨fs', ⟨hq.full, hq.tail, hq.free, hq.sound⟩, ?_, ?_, hrel.free.trans ht.free⟩,
      hrel.fd.trans hfd⟩
    · rw [show _ = t.total_recvbufs from hrel.total]
      apply ht.apart.perm
      exact perm_middle.symm
    · simp [hrel.full, ht.full]

/-! ### The purge -/

/-- Either all buffers but the last are purged, or neither of the last two is. -/
def PurgeSafe (fdOf : Nat → Int) (fd : Int) (xs : List Nat) : Prop :=
  (∀ p ∈ xs.dropLast, fdOf p = fd) ∨ (∀ p ∈ xs.drop (xs.length - 2), fdOf p ≠ fd)

/-- A buffer that is purged has nothing before it that stays, or two behind it. -/
theorem PurgeSafe.split {fdOf : Nat → Int} {fd : Int} (h : PurgeSafe fdOf fd xs)
    (hxs : xs = ps ++ x :: ys) (hx : fdOf x = fd) :
    ps.filter (fdOf · ≠ fd) = [] ∨ 2 ≤ ys.length := by
  subst hxs
  rcases h with hall | hlast
  · left
    rw [filter_eq_nil_iff]
    intro p hp
    have hmem : p ∈ (ps ++ x :: ys).dropLast := by
      rw [dropLast_append_of_ne_nil (by simp)]
      exact mem_append_left _ hp
    simp [hall p hmem]
  · by_contra hshort
    refine hlast x ?_ hx
    simp only [length_append, length_cons]
    rw [drop_append_of_le_length (by omega)]
    simp

/-- What a purge does to the buffers that it has not come to yet. -/
theorem purgeLoop_stocked (fd : Int) (rs : List Nat) :
    ∀ (ks : List Nat) {s : RecvBuffs} {fs : List Nat} {n : Nat},
      Stocked s (ks ++ rs) fs hs → rs.length < n →
      (∀ ps x ys, rs = ps ++ x :: ys → s.fd x = fd →
        ks ++ ps.filter (s.fd · ≠ fd) = [] ∨ 2 ≤ ys.length) →
      (∃ fs', Stocked (purgeLoop b fd n rs.head? s) (ks ++ rs.filter (s.fd · ≠ fd)) fs' hs) ∧
        (purgeLoop b fd n rs.head? s).fd = s.fd := by
  induction rs with
  | nil =>
    intro ks s fs n h hn _
    obtain ⟨m, rfl⟩ := Nat.exists_eq_succ_of_ne_zero (show n ≠ 0 by omega)
    exact ⟨⟨fs, h⟩, rfl⟩
  | cons x rs ih =>
    intro ks s fs n h hn hsafe
    obtain ⟨m, rfl⟩ := Nat.exists_eq_succ_of_ne_zero (show n ≠ 0 by omega)
    simp only [length_cons] at hn
    have hnext : s.link x = rs.head? := h.queues.full.link_eq
    simp only [List.head?_cons, purgeLoop, hnext]
    by_cases hx : s.fd x = fd
    · -- The buffer is taken off the FIFO and put on the free list.
      have hmid := hsafe [] x rs rfl hx
      simp only [filter_nil, append_nil] at hmid
      obtain ⟨hfound, hq, hrel⟩ := unlinkMidFifo_queues b h.queues h.lists hmid
      have hapart := h.apart
      have hout : x ∉ ks ++ rs ++ fs := by
        have hnodup := h.lists.nodup
        simp only [append_assoc, cons_append, nodup_middle, nodup_cons] at hnodup
        simpa using hnodup.1
      simp only [hx, hfound, if_true]
      generalize hu : (unlinkMidFifo b s x).1 = u at hq hrel
      have hfreed : Stocked (freerecvbuf { u with full_recvbufs := u.full_recvbufs - 1 } x)
          (ks ++ rs) (x :: fs) hs := by
        refine ⟨freerecvbuf_queues ⟨hq.full, hq.tail, hq.free, hq.sound⟩ hout, ?_, ?_, ?_⟩
        · rw [show _ = s.total_recvbufs from hrel.total]
          apply hapart.perm
          simp only [append_assoc, cons_append]
          exact List.Perm.append_left ks perm_middle.symm
        · simp [freerecvbuf, hrel.full, h.full]
        · simp [freerecvbuf, hrel.free, h.free]
      have hfd : (freerecvbuf { u with full_recvbufs := u.full_recvbufs - 1 } x).fd = s.fd :=
        hrel.fd
      have hrec := ih ks hfreed (n := m) (by omega) (by
        rw [hfd]
        intro ps y ys hys hy
        have hsplit := hsafe (x :: ps) y ys (by rw [hys]; rfl) hy
        simpa [hx] using hsplit)
      rw [hfd] at hrec
      simpa [hx] using hrec
    · -- The buffer stays, and the tail pointer has to be right behind it.
      have hkept : Stocked s (ks ++ [x] ++ rs) fs hs := by simpa using h
      have hrec := ih (ks ++ [x]) hkept (n := m) (by omega) (by
        intro ps y ys hys hy
        have hsplit := hsafe (x :: ps) y ys (by rw [hys]; rfl) hy
        simpa [hx] using hsplit)
      simpa [hx] using hrec

theorem purgeRecvBuffersForFd_stocked {fd : Int} (h : Stocked s xs fs hs)
    (hsafe : PurgeSafe s.fd fd xs) :
    (∃ fs', Stocked (purgeRecvBuffersForFd b s fd) (xs.filter (s.fd · ≠ fd)) fs' hs) ∧
      (purgeRecvBuffersForFd b s fd).fd = s.fd := by
  have hlen := h.lists.length_le
  rw [length_append] at hlen
  unfold purgeRecvBuffersForFd
  rw [h.queues.full.head_eq]
  have hloop := purgeLoop_stocked b fd xs [] h (n := s.total_recvbufs + 1) (by omega)
    (fun ps x ys hxs hx => by simpa using hsafe.split hxs hx)
  simpa using hloop

/-! ### All calls -/

/-- What is known of every state. -/
def RecvInv (s : RecvSys) : Prop := ∃ fs, Stocked s.bufs s.waiting fs s.held

/-- The condition on a call. -/
def RecvSafe (s : RecvSys) : RecvCall → Prop
  | .purge fd => PurgeSafe s.bufs.fd fd s.waiting
  | _ => True

instance (s : RecvSys) (c : RecvCall) : Decidable (RecvSafe s c) := by
  cases c <;> unfold RecvSafe <;> (try unfold PurgeSafe) <;> infer_instance

theorem recvStart_inv (build : RecvBuild) (nbufs : Nat) : RecvInv (recvStart build nbufs) := by
  have hempty : Stocked {} [] [] [] :=
    ⟨⟨rfl, rfl, rfl, rfl⟩, ⟨nodup_nil, fun p hp => absurd hp (by simp)⟩, rfl, rfl⟩
  obtain ⟨fs, hfs, -⟩ := createBuffers_stocked hempty nbufs
  exact ⟨fs, hfs⟩

theorem Stocked.held (h : Stocked s xs fs hs) (hp : p ∈ hs) :
    Stocked s xs fs (p :: hs.erase p) :=
  ⟨h.queues, h.apart.perm ((perm_cons_erase hp).append_left _), h.full, h.free⟩

theorem getFull_step {s : RecvSys} (h : RecvInv s) :
    RecvInv (recvStep s .getFull) ∧ (recvStep s .getFull).waiting = s.waiting.tail ∧
      (recvStep s .getFull).handed = s.handed ++ s.waiting.head?.toList := by
  obtain ⟨fs, hfs⟩ := h
  obtain ⟨hfirst, ⟨fs', hfs'⟩, -⟩ := getFullRecvBuffer_stocked s.build hfs
  have hnodup := (nodup_append.mp hfs.lists.nodup).1
  have hwaiting : s.waiting.filter (some · ≠ s.waiting.head?) = s.waiting.tail := by
    cases hxs : s.waiting with
    | nil => rfl
    | cons x xs =>
      rw [hxs, nodup_cons] at hnodup
      simp only [List.head?_cons, ne_eq, some.injEq, not_true_eq_false, decide_false,
        Bool.false_eq_true, not_false_eq_true, filter_cons_of_neg, tail_cons]
      rw [filter_eq_self]
      intro y hy
      simp only [decide_eq_true_eq]
      rintro rfl
      exact hnodup.1 hy
  simp only [recvStep, hfirst, hwaiting]
  exact ⟨⟨fs', hfs'⟩, trivial, trivial⟩

theorem recvStep_inv (s : RecvSys) (c : RecvCall) (h : RecvInv s) (hsafe : RecvSafe s c) :
    RecvInv (recvStep s c) := by
  obtain ⟨fs, hfs⟩ := h
  cases c with
  | getFree =>
    obtain ⟨fs', hfs', -⟩ := getFreeRecvBuffer_stocked s.build hfs
    exact ⟨fs', hfs'⟩
  | addFull rb fd =>
    simp only [recvStep]
    split_ifs with hheld
    · have hq := hfs.queues
      have hnamed : Stocked { s.bufs with fd := update s.bufs.fd rb fd } s.waiting fs
          (rb :: s.held.erase rb) := by
        obtain ⟨-, hapart, hfull, hfree⟩ := hfs.held hheld
        exact ⟨⟨hq.full, hq.tail, hq.free, hq.sound⟩, hapart, hfull, hfree⟩
      exact ⟨fs, (addFullRecvBuffer_stocked s.build hnamed).1⟩
    · exact ⟨fs, hfs⟩
  | getFull => exact (getFull_step ⟨fs, hfs⟩).1
  | purge fd =>
    obtain ⟨⟨fs', hfs'⟩, -⟩ := purgeRecvBuffersForFd_stocked s.build hfs hsafe
    exact ⟨fs', hfs'⟩
  | free rb =>
    simp only [recvStep]
    split_ifs with hheld
    · obtain ⟨hq, hapart, hfull, hfree⟩ := hfs.held hheld
      have hout : rb ∉ s.waiting ++ fs := by
        have hnodup := hapart.nodup
        rw [nodup_middle, nodup_cons] at hnodup
        exact fun hmem => hnodup.1 (mem_append_left _ hmem)
      refine ⟨rb :: fs, freerecvbuf_queues hq hout, ?_, hfull, ?_⟩
      · apply hapart.perm
        simp only [append_assoc, cons_append]
        exact List.Perm.append_left _ perm_middle
      · simp [freerecvbuf, hfree]
    · exact ⟨fs, hfs⟩

theorem getFull_all {s : RecvSys} (h : RecvInv s) (xs : List Nat) (hxs : s.waiting = xs) :
    (Run.exec recvStep s (List.replicate xs.length .getFull)).handed = s.handed ++ xs := by
  induction xs generalizing s with
  | nil => simp
  | cons x xs ih =>
    obtain ⟨hinv, hwaiting, hhanded⟩ := getFull_step h
    rw [hxs] at hwaiting hhanded
    rw [length_cons, replicate_succ, Run.exec_cons, ih hinv hwaiting, hhanded]
    simp

/-- The queue of full buffers is a queue, after every sequence of calls that all meet the condition.
    The FIFO leads through the buffers that were added and neither handed out nor purged, in the
    order in which they were added; they are counted; the tail pointer is null if there are none,
    and is the address of a pointer to the last one otherwise; the next call hands out the first of
    them, and as many calls as there are hand out all of them in order. No assertion fails and no
    null pointer is dereferenced. -/
theorem recv_queue_fifo (build : RecvBuild) (nbufs : Nat) (cs : List RecvCall)
    (hsafe : Run.Meets recvStep RecvSafe (recvStart build nbufs) cs) :
    let s := Run.exec recvStep (recvStart build nbufs) cs
    Leads s.bufs.link s.bufs.phead s.waiting ∧
    s.bufs.full_recvbufs = s.waiting.length ∧
    (s.bufs.pptail = none ↔ s.waiting = []) ∧
    (∀ loc, s.bufs.pptail = some loc →
      read s.bufs.phead s.bufs.link loc = s.waiting.getLast?) ∧
    (getFullRecvBuffer s.build s.bufs).2 = s.waiting.head? ∧
    (Run.exec recvStep s (List.replicate s.waiting.length .getFull)).handed =
      s.handed ++ s.waiting ∧
    s.bufs.aborted = false := by
  intro s
  have hinv : RecvInv s :=
    Run.exec_invariant recvStep_inv _ cs (recvStart_inv build nbufs) hsafe
  obtain ⟨fs, hfs⟩ := hinv
  have hq := hfs.queues
  refine ⟨hq.full, hfs.full, ?_, ?_, (getFullRecvBuffer_stocked s.build hfs).1,
    getFull_all ⟨fs, hfs⟩ s.waiting rfl, hq.sound⟩
  · rw [hq.tail, tailLoc_eq_none]
  · intro loc hloc
    have hfull := hq.full
    rw [hq.tail] at hloc
    cases hxs : s.waiting using List.reverseRecOn with
    | nil =>
      rw [hxs] at hloc
      cases hloc
    | append_singleton xs x _ =>
      rw [hxs, tailLoc_append, some.injEq] at hloc
      rw [hxs] at hfull
      rw [← hloc, hfull.read_after]
      simp

/-- Four buffers are filled from different descriptors. -/
def fourFull : List RecvCall :=
  List.replicate 4 .getFree ++ [.addFull 9 3, .addFull 8 4, .addFull 7 5, .addFull 6 6]

/-- The second of them is purged, and another one is filled. -/
def purgedRun : List RecvCall := fourFull ++ [.purge 4, .getFree, .addFull 8 3]

theorem recv_queue_fifo_purgedRun :
    let s := Run.exec recvStep (recvStart {} 10) purgedRun
    s.waiting = [9, 7, 6, 8] ∧
    (Run.exec recvStep s (List.replicate s.waiting.length .getFull)).handed =
      s.handed ++ s.waiting := by
  have hsafe : Run.Meets recvStep RecvSafe (recvStart {} 10) purgedRun := by decide
  exact ⟨by decide, (recv_queue_fifo {} 10 purgedRun hsafe).2.2.2.2.2.1⟩

/-- The last of them is purged, and the last but one, each with another one filled afterwards. -/
def lastPurged : List RecvCall := fourFull ++ [.purge 6, .getFree, .addFull 6 3]

def lastButOnePurged : List RecvCall := fourFull ++ [.purge 5, .getFree, .addFull 7 3]

/-- In the first case three buffers of other descriptors are lost: the tail pointer was cleared, and
    the buffer that is added next becomes the only one. In the second case two are: the tail pointer
    was set to the head of the FIFO, and the buffer is linked behind the first one. With list
    debugging both purges end in a failed assertion. -/
theorem recv_queue_loses :
    (Run.exec recvStep (recvStart {} 10) lastPurged).waiting = [9, 8, 7, 6] ∧
    (Run.exec recvStep (recvStart {} 10)
      (lastPurged ++ List.replicate 4 .getFull)).handed = [6] ∧
    (Run.exec recvStep (recvStart {} 10) lastButOnePurged).waiting = [9, 8, 6, 7] ∧
    (Run.exec recvStep (recvStart {} 10)
      (lastButOnePurged ++ List.replicate 4 .getFull)).handed = [9, 7] ∧
    (Run.exec recvStep (recvStart { debug_lists := true } 10) lastPurged).bufs.aborted = true ∧
    (Run.exec recvStep (recvStart { debug_lists := true } 10)
      lastButOnePurged).bufs.aborted = true := by
  decide

end NtpSuite
