import NtpSuite.Core.PeerIndex
import NtpSuite.Theory.MonitorTable

/-!
# The Lists of Associations, Piece by Piece

An association is threaded through four lists, with a counter for nearly each
of them, and `newpeer` does this piece by piece: the structure leaves the free
list first, is bound to an endpoint then, and goes to the tables and the list
last. `PeerInv` therefore has the structures that are in hand as a parameter:
they are on no list of associations yet, but may be on that of an endpoint.
Each piece takes the invariant from one set of structures in hand to the next.

## Main definitions

* `SameIndexed`: Two associations that every list treats alike.
* `DriverStarts`: The driver of a reference clock starts.
* `PeerInv`: The lists and the counters of lists, with structures in hand.
* `Counted`: The counters of associations.

## Theorems

* `initPeer_indexed`, `startPeer_sameIndexed`: What goes into a new structure.
* `setPeerdstadr_inv`: Moving an association to another endpoint.
* `getmorepeermem_inv`, `countPeer_inv`: Taking a structure.
* `linkPeer_inv`, `unlinkPeer_inv`: On the list, and off it.
* `freePeer_inv`: Giving a structure back.
-/

namespace NtpSuite.PeerMem

open Function List Bool Chained

/-! ### Structures -/

section Structures

variable {α : Type} [Field α]

/-- What the lists depend on is the same. -/
structure SameIndexed (p q : Peer α) : Prop where
  srcadr : q.srcadr = p.srcadr
  associd : q.associd = p.associd
  dstadr : q.dstadr = p.dstadr
  ptr : q.ptr = p.ptr
  preempt : q.flags.preempt = p.flags.preempt

theorem sameIndexed_iff {p q : Peer α} : sameIndexed p q = true ↔ SameIndexed p q := by
  unfold sameIndexed
  simp only [and_eq_true, beq_iff_eq]
  constructor
  · rintro ⟨⟨⟨⟨hsrc, hassoc⟩, hdst⟩, hptr⟩, hpre⟩
    exact ⟨hsrc, hassoc, hdst, hptr, hpre⟩
  · rintro ⟨hsrc, hassoc, hdst, hptr, hpre⟩
    exact ⟨⟨⟨⟨hsrc, hassoc⟩, hdst⟩, hptr⟩, hpre⟩

variable (p : Peer α)

theorem setPeerdstadr_eq (dstadr : Option Endpt) :
    NtpSuite.setPeerdstadr p dstadr =
      { p with dstadr := (NtpSuite.setPeerdstadr p dstadr).dstadr } := by
  unfold NtpSuite.setPeerdstadr
  split_ifs
  · rfl
  · split
    · split_ifs <;> rfl
    · rfl

theorem setPeerdstadr_none : (NtpSuite.setPeerdstadr p none).dstadr = none := by
  unfold NtpSuite.setPeerdstadr
  split_ifs with h
  · exact h
  · rfl

theorem initPeer_indexed [LinearOrder α] (c : Cfg α) (e : Env α) (s : Sys α) (a : NewPeer)
    (ptr : Nat) :
    (initPeer c e s a ptr).ptr = ptr ∧
      (initPeer c e s a ptr).associd = s.current_association_ID ∧
      (initPeer c e s a ptr).srcadr = a.srcadr ∧
      (initPeer c e s a ptr).flags.preempt = a.flags.preempt := by
  unfold initPeer
  simp only [peerClear, clearToZero, keyExpire]
  rw [setPeerdstadr_eq]
  refine ⟨rfl, rfl, rfl, ?_⟩
  split_ifs <;> rfl

/-- The driver of a reference clock starts. -/
def DriverStarts (c : Cfg α) (e : Env α) (a : NewPeer) : Prop :=
  a.srcadr.isRefclockAdr = true →
    c.refclock = true ∧ (e.clock_start a.srcadr.refclockType).isSome = true

instance (c : Cfg α) (e : Env α) (a : NewPeer) : Decidable (DriverStarts c e a) :=
  inferInstanceAs (Decidable (_ → _))

theorem driverPoll_sameIndexed (clktype : Nat) (p : Peer α) :
    SameIndexed p (driverPoll clktype p) := by
  unfold driverPoll
  split_ifs <;> exact ⟨rfl, rfl, rfl, rfl, rfl⟩

theorem SameIndexed.trans {p q r : Peer α} (h : SameIndexed p q) (h' : SameIndexed q r) :
    SameIndexed p r :=
  ⟨h'.srcadr.trans h.srcadr, h'.associd.trans h.associd, h'.dstadr.trans h.dstadr,
    h'.ptr.trans h.ptr, h'.preempt.trans h.preempt⟩

theorem refclockNewpeer_sameIndexed {e : Env α} {p q : Peer α}
    (h : refclockNewpeer e p = some q) : SameIndexed p q := by
  unfold refclockNewpeer at h
  cases hstart : e.clock_start p.srcadr.refclockType with
  | none => simp [hstart] at h
  | some header =>
    simp only [hstart, Option.some.injEq] at h
    rw [← h]
    refine SameIndexed.trans ?_ (driverPoll_sameIndexed _ _)
    exact ⟨rfl, rfl, rfl, rfl, rfl⟩

theorem refclockNewpeer_isSome (e : Env α) (p : Peer α) :
    (refclockNewpeer e p).isSome = (e.clock_start p.srcadr.refclockType).isSome := by
  unfold refclockNewpeer
  simp only
  cases e.clock_start p.srcadr.refclockType <;> rfl

theorem startPeer_sameIndexed {c : Cfg α} {e : Env α} {a : NewPeer} {p q : Peer α}
    (h : startPeer c e a p = some q) : SameIndexed p q := by
  unfold startPeer at h
  split_ifs at h
  · refine SameIndexed.trans ?_ (refclockNewpeer_sameIndexed h)
    exact ⟨rfl, rfl, rfl, rfl, rfl⟩
  · exact refclockNewpeer_sameIndexed h
  · rw [← Option.some.inj h]
    exact ⟨rfl, rfl, rfl, rfl, rfl⟩

theorem startPeer_isSome {c : Cfg α} {e : Env α} {a : NewPeer} {p : Peer α}
    (hsrc : p.srcadr = a.srcadr) : (startPeer c e a p).isSome = true ↔ DriverStarts c e a := by
  unfold startPeer DriverStarts
  split_ifs with hclock hbuilt
  · simp [refclockNewpeer_isSome, hsrc, hclock, hbuilt]
  · simp [refclockNewpeer_isSome, hsrc, hclock, hbuilt]
  · simp [hclock, hbuilt]
  · simp [hclock]

end Structures

/-! ### The invariant -/

section Lists

variable {α : Type} [Field α]

/-- The lists agree, and so do their counters. The structures in `held` were
    taken from the free list and are on no list but those of endpoints. -/
structure PeerInv (held : List Nat) (s : PeerMem α) : Prop where
  nodup : (held ++ (s.peer_list ++ s.peer_free)).Nodup
  lt : ∀ ptr ∈ held ++ (s.peer_list ++ s.peer_free), ptr < s.alloc
  own : ∀ ptr ∈ held ++ s.peer_list, (s.mem ptr).ptr = ptr
  byAddr : Chained.InOrder s.peer_hash (fun ptr => ntpHashAddr (s.mem ptr).srcadr) s.peer_list
  addrCount : ∀ b, s.peer_hash_count b = (s.peer_hash b).length
  byId : Chained.InOrder s.assoc_hash (fun ptr => assocHash (s.mem ptr).associd) s.peer_list
  idCount : ∀ b, s.assoc_hash_count b = (s.assoc_hash b).length
  byEndpt : Chained.Indexes s.peers (fun ptr => (s.mem ptr).dstadr) (held ++ s.peer_list)
  peercnt : ∀ ep, s.peercnt ep = (s.peers ep).length
  freeCount : s.peer_free_count = s.peer_free.length
  total : s.total_peer_structs = held.length + s.peer_list.length + s.peer_free.length
  sound : s.aborted = false

/-- The counters of associations. -/
structure Counted (held : List Nat) (s : PeerMem α) : Prop where
  associations : s.peer_associations = held.length + s.peer_list.length
  preempt : s.peer_preempt = (held ++ s.peer_list).countP fun ptr => (s.mem ptr).flags.preempt

theorem initPeers_inv (associd : Nat) : PeerInv [] (initPeers associd : PeerMem α) where
  nodup := nodup_range'
  lt := by
    intro ptr hptr
    simp only [initPeers, nil_append, mem_range'_1] at hptr ⊢
    omega
  own := by simp [initPeers]
  byAddr := inOrder_nil _
  addrCount := fun _ => rfl
  byId := inOrder_nil _
  idCount := fun _ => rfl
  byEndpt := indexes_nil _
  peercnt := fun _ => rfl
  freeCount := by simp [initPeers]
  total := by simp [initPeers]
  sound := rfl

theorem initPeers_counted (associd : Nat) : Counted [] (initPeers associd : PeerMem α) :=
  ⟨rfl, rfl⟩

variable {held : List Nat} {s : PeerMem α} {ptr : Nat}

theorem PeerInv.free_not_mem (h : PeerInv held s) (hfree : ptr ∈ s.peer_free) :
    ptr ∉ held ++ s.peer_list := by
  have hnodup := h.nodup
  rw [← append_assoc] at hnodup
  exact fun hin => (nodup_append.mp hnodup).2.2 ptr hin ptr hfree rfl

theorem PeerInv.used_nodup (h : PeerInv held s) : (held ++ s.peer_list).Nodup := by
  have hnodup := h.nodup
  rw [← append_assoc] at hnodup
  exact (nodup_append.mp hnodup).1

theorem PeerInv.list_nodup (h : PeerInv held s) : s.peer_list.Nodup :=
  (nodup_append.mp h.used_nodup).2.1

variable {p : Peer α} {bucket : Nat → Option Endpt}

/-- Something is stored in a structure that the lists do not depend on. -/
theorem PeerInv.store (h : PeerInv held s) (hsame : SameIndexed (s.mem ptr) p) :
    PeerInv held { s with mem := update s.mem ptr p } := by
  refine { h with own := ?_, byAddr := ?_, byId := ?_, byEndpt := ?_ }
  · intro x hx
    exact (update_field Peer.ptr hsame.ptr x).trans (h.own x hx)
  · apply h.byAddr.congr
    intro x _
    exact congrArg ntpHashAddr (update_field Peer.srcadr hsame.srcadr x)
  · apply h.byId.congr
    intro x _
    exact congrArg assocHash (update_field Peer.associd hsame.associd x)
  · apply h.byEndpt.congr
    intro x _
    exact update_field Peer.dstadr hsame.dstadr x

theorem Counted.store (h : Counted held s) (hsame : SameIndexed (s.mem ptr) p) :
    Counted held { s with mem := update s.mem ptr p } := by
  refine ⟨h.associations, ?_⟩
  rw [h.preempt]
  congr 1
  apply countP_congr
  intro x _
  rw [update_field (fun p : Peer α => p.flags.preempt) hsame.preempt x]

/-! ### Endpoints -/

theorem link_count {κ : Type} [DecidableEq κ] {t : κ → List Nat} {count : κ → Int}
    (h : ∀ b, count b = (t b).length) (b : κ) (x : Nat) (c : κ) :
    update count b (count b + 1) c = (Chained.link t b x c).length := by
  unfold Chained.link
  by_cases hc : c = b
  · subst hc
    simp [h]
  · simp [update_of_ne hc, h]

theorem unlink_count {κ : Type} [DecidableEq κ] {t : κ → List Nat} {count : κ → Int}
    (h : ∀ b, count b = (t b).length) {b : κ} {x : Nat} (hx : x ∈ t b) (c : κ) :
    update count b (count b - 1) c = (Chained.unlink t b x c).length := by
  unfold Chained.unlink
  by_cases hc : c = b
  · subst hc
    have hpos := length_pos_of_mem hx
    simp only [update_self, h, length_erase_of_mem hx]
    omega
  · simp [update_of_ne hc, h]

/-- Nothing else changes when an association goes from one endpoint to another. -/
theorem rebind_eq (s : PeerMem α) (ptr : Nat) (old new : Option Endpt) :
    (s.unbind ptr old).bind ptr new =
      { s with
        peers := ((s.unbind ptr old).bind ptr new).peers
        peercnt := ((s.unbind ptr old).bind ptr new).peercnt } := by
  cases old <;> cases new <;> rfl

theorem bind_eq (s : PeerMem α) (ptr : Nat) (new : Option Endpt) :
    s.bind ptr new =
      { s with peers := (s.bind ptr new).peers, peercnt := (s.bind ptr new).peercnt } := by
  cases new <;> rfl

theorem unbind_peers {xs : List Nat} (h : Chained.Indexes s.peers bucket xs) (ptr : Nat) :
    Chained.Indexes (s.unbind ptr (bucket ptr)).peers bucket (xs.erase ptr) := by
  cases hb : bucket ptr with
  | none => exact h.erase_none hb
  | some ep => exact h.unlink hb

theorem bind_peers {xs : List Nat} (h : Chained.Indexes s.peers bucket xs) (ptr : Nat) :
    Chained.Indexes (s.bind ptr (bucket ptr)).peers bucket (ptr :: xs) := by
  cases hb : bucket ptr with
  | none => exact h.cons_none hb
  | some ep => exact h.link hb

theorem unbind_peercnt {xs : List Nat} (h : Chained.Indexes s.peers bucket xs) (hptr : ptr ∈ xs)
    (hcnt : ∀ ep, s.peercnt ep = (s.peers ep).length) (ep : Endpt) :
    (s.unbind ptr (bucket ptr)).peercnt ep = ((s.unbind ptr (bucket ptr)).peers ep).length := by
  cases hb : bucket ptr with
  | none => exact hcnt ep
  | some old => exact unlink_count hcnt (h.mem_iff.mpr ⟨hptr, hb⟩) ep

theorem bind_peercnt (hcnt : ∀ ep, s.peercnt ep = (s.peers ep).length) (ptr : Nat)
    (d : Option Endpt) (ep : Endpt) :
    (s.bind ptr d).peercnt ep = ((s.bind ptr d).peers ep).length := by
  cases d with
  | none => exact hcnt ep
  | some new => exact link_count hcnt new ptr ep

/-- `set_peerdstadr` either changes nothing or moves the association. -/
theorem setPeerdstadr_cases (s : PeerMem α) (ptr : Nat) (dstadr : Option Endpt) :
    s.setPeerdstadr ptr dstadr = s ∧
        (NtpSuite.setPeerdstadr (s.mem ptr) dstadr).dstadr = (s.mem ptr).dstadr ∨
      ∃ peers peercnt, s.setPeerdstadr ptr dstadr = { s with
        mem := update s.mem ptr (NtpSuite.setPeerdstadr (s.mem ptr) dstadr)
        peers := peers, peercnt := peercnt } := by
  unfold PeerMem.setPeerdstadr
  simp only
  split_ifs with hsame
  · exact .inl ⟨rfl, hsame⟩
  · exact .inr ⟨_, _, rebind_eq _ ptr _ _⟩

theorem setPeerdstadr_mem (s : PeerMem α) (ptr : Nat) (dstadr : Option Endpt) :
    (s.setPeerdstadr ptr dstadr).mem =
      update s.mem ptr (NtpSuite.setPeerdstadr (s.mem ptr) dstadr) := by
  rcases setPeerdstadr_cases s ptr dstadr with ⟨heq, hsame⟩ | ⟨peers, peercnt, heq⟩
  · rw [heq, setPeerdstadr_eq, hsame]
    exact (update_eq_self ptr s.mem).symm
  · rw [heq]

theorem setPeerdstadr_inv (h : PeerInv held s) (hptr : ptr ∈ held ++ s.peer_list)
    (dstadr : Option Endpt) : PeerInv held (s.setPeerdstadr ptr dstadr) := by
  unfold PeerMem.setPeerdstadr
  simp only
  split_ifs with hsame
  · exact h
  obtain ⟨q, hq⟩ : ∃ q, q = NtpSuite.setPeerdstadr (s.mem ptr) dstadr := ⟨_, rfl⟩
  have hfields : q = { s.mem ptr with dstadr := q.dstadr } := by
    rw [hq]
    exact setPeerdstadr_eq _ _
  rw [← hq] at hsame ⊢
  obtain ⟨s1, hs1⟩ : ∃ s1 : PeerMem α, s1 = { s with mem := update s.mem ptr q } :=
    ⟨_, rfl⟩
  -- Off the list of the old endpoint, then on that of the new one.
  have hpeers : Chained.Indexes s1.peers (fun x => (s.mem x).dstadr) (held ++ s.peer_list) := by
    rw [hs1]
    exact h.byEndpt
  have hcnt : ∀ ep, s1.peercnt ep = (s1.peers ep).length := by
    rw [hs1]
    exact h.peercnt
  have hoff := unbind_peers hpeers ptr
  have hoffcnt := unbind_peercnt hpeers hptr hcnt
  have hrest : Chained.Indexes (s1.unbind ptr (s.mem ptr).dstadr).peers
      (fun x => (update s.mem ptr q x).dstadr) ((held ++ s.peer_list).erase ptr) := by
    apply hoff.congr
    intro x hx
    rw [update_off h.used_nodup.not_mem_erase x hx]
  have hon := bind_peers hrest ptr
  have honcnt := bind_peercnt hoffcnt ptr q.dstadr
  simp only [update_self] at hon
  have hperm := (perm_cons_erase hptr).symm
  rw [rebind_eq]
  subst hs1
  refine ⟨h.nodup, h.lt, ?_, ?_, h.addrCount, ?_, h.idCount, hon.perm hperm, honcnt, h.freeCount,
    h.total, h.sound⟩
  · intro x hx
    exact (update_field Peer.ptr (by rw [hfields]) x).trans (h.own x hx)
  · apply h.byAddr.congr
    intro x _
    exact congrArg ntpHashAddr (update_field Peer.srcadr (by rw [hfields]) x)
  · apply h.byId.congr
    intro x _
    exact congrArg assocHash (update_field Peer.associd (by rw [hfields]) x)

theorem setPeerdstadr_counted (h : Counted held s) (ptr : Nat) (dstadr : Option Endpt) :
    Counted held (s.setPeerdstadr ptr dstadr) := by
  have hmem := setPeerdstadr_mem s ptr dstadr
  have hpreempt : (NtpSuite.setPeerdstadr (s.mem ptr) dstadr).flags.preempt =
      (s.mem ptr).flags.preempt := by
    rw [setPeerdstadr_eq]
  have hcount : ((held ++ s.peer_list).countP fun x =>
      ((s.setPeerdstadr ptr dstadr).mem x).flags.preempt) =
      (held ++ s.peer_list).countP fun x => (s.mem x).flags.preempt := by
    apply countP_congr
    intro x _
    rw [hmem, update_field (fun p : Peer α => p.flags.preempt) hpreempt x]
  rcases setPeerdstadr_cases s ptr dstadr with ⟨heq, -⟩ | ⟨peers, peercnt, heq⟩
  · rw [heq]
    exact h
  · rw [heq] at hcount ⊢
    exact ⟨h.associations, h.preempt.trans (congrArg _ hcount.symm)⟩

/-! ### The pieces of `newpeer` and `unpeer` -/

theorem getmorepeermem_inv (h : PeerInv held s) : PeerInv held s.getmorepeermem := by
  have hnew : ∀ x ∈ List.range' s.alloc INC_PEER_ALLOC,
      s.alloc ≤ x ∧ x < s.alloc + INC_PEER_ALLOC := by
    intro x hx
    exact mem_range'_1.mp hx
  have hperm : (held ++ (s.peer_list ++ (List.range' s.alloc INC_PEER_ALLOC ++ s.peer_free))).Perm
      (List.range' s.alloc INC_PEER_ALLOC ++ (held ++ (s.peer_list ++ s.peer_free))) := by
    have hinner : (s.peer_list ++ (List.range' s.alloc INC_PEER_ALLOC ++ s.peer_free)).Perm
        (List.range' s.alloc INC_PEER_ALLOC ++ (s.peer_list ++ s.peer_free)) :=
      perm_append_comm_assoc _ _ _
    exact (hinner.append_left held).trans (perm_append_comm_assoc _ _ _)
  refine { h with nodup := ?_, lt := ?_, freeCount := ?_, total := ?_ }
  · refine hperm.nodup_iff.mpr (nodup_append.mpr ⟨nodup_range', h.nodup, ?_⟩)
    intro x hx y hy heq
    have hlow := (hnew x hx).1
    have hhigh := h.lt y hy
    omega
  · intro x hx
    rcases mem_append.mp (hperm.mem_iff.mp hx) with hchunk | hold
    · exact (hnew x hchunk).2
    · exact (h.lt x hold).trans_le (Nat.le_add_right _ _)
  · have hcount := h.freeCount
    simp only [getmorepeermem, length_append, length_range', hcount]
    omega
  · have htotal := h.total
    simp only [getmorepeermem, length_append, length_range', htotal]
    omega

/-- A structure is taken from the free list, an association is put in it, and
    bound to its endpoint. -/
theorem countPeer_inv (h : PeerInv [] s) {rest : List Nat} (hcons : s.peer_free = ptr :: rest)
    (c : Cfg α) (a : NewPeer) (hp : p.ptr = ptr) :
    PeerInv [ptr] ({ s.countPeer c a rest with mem := update s.mem ptr p }.bind ptr p.dstadr) := by
  have hnodup := h.nodup
  have hlt := h.lt
  have hcount := h.freeCount
  have htotal := h.total
  rw [hcons] at hnodup hlt hcount htotal
  have hperm : (s.peer_list ++ ptr :: rest).Perm (ptr :: (s.peer_list ++ rest)) := perm_middle
  have hnot : ptr ∉ s.peer_list := h.free_not_mem (by rw [hcons]; exact mem_cons_self)
  have hold : ∀ x ∈ s.peer_list, update s.mem ptr p x = s.mem x := update_off hnot
  obtain ⟨s1, hs1⟩ : ∃ s1 : PeerMem α,
      s1 = { s.countPeer c a rest with mem := update s.mem ptr p } := ⟨_, rfl⟩
  have hpeers : Chained.Indexes s1.peers (fun x => (update s.mem ptr p x).dstadr)
      s.peer_list := by
    rw [hs1]
    apply h.byEndpt.congr
    intro x hx
    rw [hold x hx]
  have hbound := bind_peers hpeers ptr
  have hcnt : ∀ ep, s1.peercnt ep = (s1.peers ep).length := by
    rw [hs1]
    exact h.peercnt
  have hboundcnt := bind_peercnt hcnt ptr p.dstadr
  simp only [update_self] at hbound
  rw [bind_eq]
  subst hs1
  refine ⟨hperm.nodup_iff.mp hnodup, fun x hx => hlt x (hperm.mem_iff.mpr hx), ?_, ?_, h.addrCount,
    ?_, h.idCount, hbound, hboundcnt, ?_, ?_, h.sound⟩
  · intro x hx
    rcases mem_cons.mp hx with rfl | hx
    · simp only [update_self]
      exact hp
    · simp only [hold x hx]
      exact h.own x hx
  · apply h.byAddr.congr
    intro x hx
    simp only [hold x hx]
  · apply h.byId.congr
    intro x hx
    simp only [hold x hx]
  · simp only [countPeer, hcount, length_cons]
    omega
  · simp only [countPeer, htotal, length_cons, length_nil]
    omega

theorem countPeer_counted (h : Counted [] s) (hnot : ptr ∉ s.peer_list) (c : Cfg α) (a : NewPeer)
    (rest : List Nat) (hp : p.flags.preempt = a.flags.preempt) :
    Counted [ptr] ({ s.countPeer c a rest with mem := update s.mem ptr p }.bind ptr p.dstadr) := by
  have hold : (s.peer_list.countP fun x => (update s.mem ptr p x).flags.preempt) = _ :=
    countP_off hnot fun q : Peer α => q.flags.preempt
  have hassoc := h.associations
  have hpre := h.preempt
  rw [bind_eq]
  refine ⟨?_, ?_⟩
  · simp only [countPeer, hassoc, length_cons, length_nil]
    omega
  · simp only [countPeer, cons_append, nil_append, countP_cons, hold, update_self, hp, hpre]
    split_ifs <;> push_cast <;> omega

theorem takePeer_some (h : PeerInv held s) (c : Cfg α) (a : NewPeer) :
    ∃ s0 ptr rest, s0 = (if s.peer_free_count = 0 then s.getmorepeermem else s) ∧
      s0.peer_free = ptr :: rest ∧ s.takePeer c a = some (ptr, s0.countPeer c a rest) := by
  obtain ⟨s0, hs0⟩ : ∃ s0, s0 = if s.peer_free_count = 0 then s.getmorepeermem else s := ⟨_, rfl⟩
  have hfree : s0.peer_free ≠ [] := by
    rw [hs0]
    split_ifs with hzero
    · simp [getmorepeermem, INC_PEER_ALLOC, List.range'_succ]
    · intro hnil
      rw [h.freeCount, hnil] at hzero
      exact hzero rfl
  obtain ⟨ptr, rest, hcons⟩ := exists_cons_of_ne_nil hfree
  refine ⟨s0, ptr, rest, hs0, hcons, ?_⟩
  unfold takePeer
  simp only [← hs0, hcons]

theorem linkPeer_inv (h : PeerInv [ptr] s) : PeerInv [] (s.linkPeer ptr) := by
  refine ⟨h.nodup, h.lt, h.own, h.byAddr.link ptr, ?_, h.byId.link ptr, ?_, h.byEndpt, h.peercnt,
    h.freeCount, ?_, h.sound⟩
  · exact link_count h.addrCount _ ptr
  · exact link_count h.idCount _ ptr
  · have htotal := h.total
    simp only [linkPeer, length_cons, length_nil] at htotal ⊢
    omega

theorem linkPeer_counted (h : Counted [ptr] s) : Counted [] (s.linkPeer ptr) := by
  refine ⟨?_, h.preempt⟩
  have hassoc := h.associations
  simp only [linkPeer, length_cons, length_nil] at hassoc ⊢
  omega

theorem unlinkPeer_inv (h : PeerInv [] s) (hptr : ptr ∈ s.peer_list) :
    PeerInv [ptr] (s.unlinkPeer ptr) := by
  have haddr : ptr ∈ s.peer_hash (ntpHashAddr (s.mem ptr).srcadr) :=
    h.byAddr.mem_iff.mpr ⟨hptr, rfl⟩
  have hid : ptr ∈ s.assoc_hash (assocHash (s.mem ptr).associd) :=
    h.byId.mem_iff.mpr ⟨hptr, rfl⟩
  have hperm : s.peer_list.Perm (ptr :: s.peer_list.erase ptr) := perm_cons_erase hptr
  have hall : (s.peer_list ++ s.peer_free).Perm
      (ptr :: s.peer_list.erase ptr ++ s.peer_free) := hperm.append_right _
  refine ⟨hall.nodup_iff.mp h.nodup, fun x hx => h.lt x (hall.mem_iff.mpr hx),
    fun x hx => h.own x (hperm.mem_iff.mpr hx), h.byAddr.unlink ptr, ?_, h.byId.unlink ptr, ?_,
    h.byEndpt.perm hperm, h.peercnt, h.freeCount, ?_, h.sound⟩
  · simp only [unlinkPeer, if_pos haddr]
    exact unlink_count h.addrCount haddr
  · simp only [unlinkPeer, if_pos hid]
    exact unlink_count h.idCount hid
  · have htotal := h.total
    rw [hperm.length_eq] at htotal
    simp only [unlinkPeer, length_cons, length_nil] at htotal ⊢
    omega

theorem freePeer_inv (h : PeerInv [ptr] s) (hdst : (s.mem ptr).dstadr = none) :
    PeerInv [] (s.freePeer ptr false) := by
  have hnot : ptr ∉ s.peer_list := (nodup_cons.mp h.used_nodup).1
  have hold : ∀ x ∈ s.peer_list, update s.mem ptr { ptr := ptr } x = s.mem x :=
    update_off hnot
  have hperm : (ptr :: (s.peer_list ++ s.peer_free)).Perm (s.peer_list ++ ptr :: s.peer_free) :=
    perm_middle.symm
  refine ⟨hperm.nodup_iff.mp h.nodup, fun x hx => h.lt x (hperm.mem_iff.mpr hx), ?_, ?_,
    h.addrCount, ?_, h.idCount, ?_, h.peercnt, ?_, ?_, h.sound⟩
  · intro x hx
    simp only [freePeer, false_eq_true, if_false, nil_append] at hx ⊢
    rw [hold x hx]
    exact h.own x (mem_cons_of_mem ptr hx)
  · apply h.byAddr.congr
    intro x hx
    simp only [freePeer, false_eq_true, if_false, hold x hx]
  · apply h.byId.congr
    intro x hx
    simp only [freePeer, false_eq_true, if_false, hold x hx]
  · have hrest := h.byEndpt.erase_none hdst
    rw [singleton_append, erase_cons_head] at hrest
    apply hrest.congr
    intro x hx
    simp only [freePeer, false_eq_true, if_false, hold x hx]
  · have hcount := h.freeCount
    simp only [freePeer, false_eq_true, if_false, length_cons, hcount]
    rfl
  · have htotal := h.total
    simp only [freePeer, false_eq_true, if_false, length_cons, length_nil]
      at htotal ⊢
    omega

end Lists

end NtpSuite.PeerMem
