import NtpSuite.Theory.PeerIndexes

/-!
# Association Identifiers

Identifiers are handed out in order, from 16 bits, and zero is skipped. No
association ever has identifier zero. Two can have the same one: nothing in
`newpeer` looks whether the next identifier is still in use, so an association
that lives while 65535 others are made shares its identifier with the last of
them, and `findpeerbyassoc` then finds the younger. `associds_unique` is for
runs in which the next identifier is free whenever an association is made, and
`newpeer_unique_iff` says that this is needed.

The search by identifier and that by address look at one chain only. They find
what a search of all associations would find, `findpeerbyassoc_eq` and
`refusePeer_eq`.

## Main definitions

* `IdRange`, `IdUnique`: The identifiers of live associations.
* `FreshId`, `FreshStep`: The next identifier is free.
* `wrapRun`: A run in which the identifiers wrap around.

## Theorems

* `findpeerbyassoc_eq`, `refusePeer_eq`: Searches of one chain.
* `exec_idRange`: No association has identifier zero.
* `newpeer_unique_iff`: When identifiers stay unique.
* `associds_unique`: Identifiers are unique if the next one is always free.
* `associds_repeat`: They are not otherwise.
-/

namespace NtpSuite.PeerMem

open Function List Run

/-! ### Searches -/

section Search

variable {α : Type} [Field α] {s : PeerMem α}

theorem findpeerbyassoc_eq (h : PeerInv [] s) (assoc : Nat) :
    s.findpeerbyassoc assoc = s.peer_list.find? fun ptr => (s.mem ptr).associd = assoc := by
  apply h.byId.find?_eq
  intro ptr _ htest
  rw [of_decide_eq_true htest]

theorem ntpHashAddr_eq {a b : SockAddr} (h : a.addrPortEq b = true) :
    ntpHashAddr b = ntpHashAddr a := by
  simp only [SockAddr.addrPortEq, SockAddr.sockEq, Bool.and_eq_true, beq_iff_eq] at h
  obtain ⟨-, ⟨haf, haddr⟩, -⟩ := h
  simp only [ntpHashAddr, sockHash, SockAddr.octets, haf, haddr]

theorem refusePeer_eq [LinearOrder α] (h : PeerInv [] s) (c : Cfg α) (e : Env α) (a : NewPeer) :
    refusePeer c e s a =
      ((c.autokey && !c.crypto_flags && (decide (a.key > NTP_MAXKEY) || a.flags.skey))
        || s.peer_list.any fun ptr => isDuplicate e a (s.mem ptr)) := by
  unfold refusePeer searched
  split_ifs with hname
  · rfl
  · -- Without a name, a duplicate has the address of the request.
    have hnone : a.hostname = none := by
      rwa [Option.isSome_iff_ne_none, not_not] at hname
    have hfind : (s.peer_hash (ntpHashAddr a.srcadr)).find?
        (fun ptr => isDuplicate e a (s.mem ptr)) =
          s.peer_list.find? fun ptr => isDuplicate e a (s.mem ptr) := by
      apply h.byAddr.find?_eq
      intro ptr _ htest
      simp only [isDuplicate, isExisting, hnone, Bool.and_eq_true] at htest
      exact ntpHashAddr_eq htest.1.2
    congr 1
    rw [Bool.eq_iff_iff, any_eq_true, any_eq_true, ← List.find?_isSome, ← List.find?_isSome, hfind]

end Search

/-! ### Identifiers -/

section Ids

variable {α : Type} [Field α] {s t : PeerMem α}

theorem nextAssocId_range (id : Nat) : 0 < nextAssocId id ∧ nextAssocId id < 2 ^ 16 := by
  unfold nextAssocId
  split_ifs
  · decide
  · omega

/-- The next identifier, and those of all live associations, are in range. -/
structure IdRange (s : PeerMem α) : Prop where
  next : 0 < s.current_association_ID ∧ s.current_association_ID < 2 ^ 16
  live : ∀ ptr ∈ s.peer_list, 0 < (s.mem ptr).associd ∧ (s.mem ptr).associd < 2 ^ 16

/-- No two live associations have the same identifier. -/
def IdUnique (s : PeerMem α) : Prop :=
  ∀ x ∈ s.peer_list, ∀ y ∈ s.peer_list, (s.mem x).associd = (s.mem y).associd → x = y

/-- No live association has the next identifier. -/
def FreshId (s : PeerMem α) : Prop :=
  ∀ ptr ∈ s.peer_list, (s.mem ptr).associd ≠ s.current_association_ID

instance (s : PeerMem α) : Decidable (FreshId s) :=
  inferInstanceAs (Decidable (∀ ptr ∈ s.peer_list, _ ≠ _))

/-- There are no new associations, and the others keep their identifiers. -/
structure KeepsIds (s t : PeerMem α) : Prop where
  next : t.current_association_ID = s.current_association_ID
  live : ∀ ptr ∈ t.peer_list, ptr ∈ s.peer_list ∧ (t.mem ptr).associd = (s.mem ptr).associd

theorem KeepsIds.range (hk : KeepsIds s t) (h : IdRange s) : IdRange t := by
  refine ⟨hk.next ▸ h.next, ?_⟩
  intro ptr hptr
  obtain ⟨hold, hid⟩ := hk.live ptr hptr
  rw [hid]
  exact h.live ptr hold

theorem KeepsIds.unique (hk : KeepsIds s t) (h : IdUnique s) : IdUnique t := by
  intro x hx y hy heq
  obtain ⟨hxold, hxid⟩ := hk.live x hx
  obtain ⟨hyold, hyid⟩ := hk.live y hy
  rw [hxid, hyid] at heq
  exact h x hxold y hyold heq

theorem keepsIds_store (s : PeerMem α) {ptr : Nat} {p : Peer α}
    (hid : p.associd = (s.mem ptr).associd) : KeepsIds s { s with mem := update s.mem ptr p } := by
  refine ⟨rfl, ?_⟩
  intro x hx
  refine ⟨hx, ?_⟩
  by_cases heq : x = ptr
  · subst heq
    simp only [update_self, hid]
  · simp only [update_of_ne heq]

theorem keepsIds_setPeerdstadr (s : PeerMem α) (ptr : Nat) (dstadr : Option Endpt) :
    KeepsIds s (s.setPeerdstadr ptr dstadr) := by
  have hnext : (s.setPeerdstadr ptr dstadr).current_association_ID = s.current_association_ID := by
    rcases setPeerdstadr_cases s ptr dstadr with ⟨heq, -⟩ | ⟨peers, peercnt, heq⟩ <;> rw [heq]
  have hid : (NtpSuite.setPeerdstadr (s.mem ptr) dstadr).associd = (s.mem ptr).associd := by
    rw [setPeerdstadr_eq]
  refine ⟨hnext, ?_⟩
  rw [setPeerdstadr_list, setPeerdstadr_mem]
  exact (keepsIds_store s hid).live

theorem keepsIds_unpeer (h : PeerInv [] s) (ptr : Nat) : KeepsIds s (s.unpeer ptr) := by
  refine ⟨(keepsIds_setPeerdstadr s ptr none).next, ?_⟩
  intro x hx
  rw [unpeer_list] at hx
  have hne : x ≠ ptr := fun heq => h.list_nodup.not_mem_erase (heq ▸ hx)
  exact ⟨mem_of_mem_erase hx, by rw [unpeer_mem s hne]⟩

/-- With unique identifiers, the search by identifier finds the one association that has it. -/
theorem findpeerbyassoc_iff (h : PeerInv [] s) (hu : IdUnique s) (assoc ptr : Nat) :
    s.findpeerbyassoc assoc = some ptr ↔ ptr ∈ s.peer_list ∧ (s.mem ptr).associd = assoc := by
  rw [findpeerbyassoc_eq h]
  constructor
  · intro hfind
    have htest := List.find?_some hfind
    exact ⟨mem_of_find?_eq_some hfind, of_decide_eq_true htest⟩
  · rintro ⟨hptr, hid⟩
    have hsome : (s.peer_list.find? fun x => (s.mem x).associd = assoc).isSome = true :=
      List.find?_isSome.mpr ⟨ptr, hptr, decide_eq_true hid⟩
    obtain ⟨x, hfind⟩ := Option.isSome_iff_exists.mp hsome
    have htest := List.find?_some hfind
    have hxid : (s.mem x).associd = assoc := of_decide_eq_true htest
    rw [hfind, hu x (mem_of_find?_eq_some hfind) ptr hptr (hxid.trans hid.symm)]

end Ids

/-! ### New associations -/

section Mobilize

variable {α : Type} [Field α] [LinearOrder α] {s s1 : PeerMem α} {c : Cfg α} {e : Env α}
  {a : NewPeer} {ptr : Nat} {p q : Peer α}

theorem Mobilizes.not_mem (h : Mobilizes c e s a ptr p s1) : ptr ∉ s.peer_list := by
  have hnodup := h.inv.used_nodup
  rw [h.list, singleton_append, nodup_cons] at hnodup
  exact hnodup.1

/-- A structure that goes back leaves the associations as they are, and only
    uses up an identifier. -/
theorem Mobilizes.giveBack (h : Mobilizes c e s a ptr p s1) :
    (giveBack s1 ptr).current_association_ID = nextAssocId s.current_association_ID ∧
      (giveBack s1 ptr).peer_list = s.peer_list ∧
      ∀ x ∈ s.peer_list, (PeerMem.giveBack s1 ptr).mem x = s.mem x := by
  refine ⟨?_, ?_, ?_⟩
  · exact (keepsIds_setPeerdstadr s1 ptr none).next.trans h.id
  · exact (setPeerdstadr_list s1 ptr none).trans h.list
  · intro x hx
    have hne : x ≠ ptr := fun heq => h.not_mem (heq ▸ hx)
    have hmem : (s1.setPeerdstadr ptr none).mem x = s.mem x := by
      rw [setPeerdstadr_mem, update_of_ne hne, h.mem, update_of_ne hne]
    exact (update_of_ne hne _ _).trans hmem

/-- A new association is at the head of the list and has the next identifier. -/
theorem Mobilizes.putOn (h : Mobilizes c e s a ptr p s1) (hstart : startPeer c e a p = some q) :
    (putOn s1 ptr q).current_association_ID = nextAssocId s.current_association_ID ∧
      (putOn s1 ptr q).peer_list = ptr :: s.peer_list ∧
      ((PeerMem.putOn s1 ptr q).mem ptr).associd = s.current_association_ID ∧
      ∀ x ∈ s.peer_list, (PeerMem.putOn s1 ptr q).mem x = s.mem x := by
  refine ⟨h.id, congrArg (ptr :: ·) h.list, ?_, ?_⟩
  · have hself : (PeerMem.putOn s1 ptr q).mem ptr = q := update_self ..
    have hid := (h.sameIndexed hstart).associd
    rw [hself, hid, h.mem, update_self, h.init]
    exact (initPeer_indexed c e s.vars a ptr).2.1
  · intro x hx
    have hne : x ≠ ptr := fun heq => h.not_mem (heq ▸ hx)
    have hmem : s1.mem x = s.mem x := by rw [h.mem, update_of_ne hne]
    exact (update_of_ne hne _ _).trans hmem

theorem newpeer_idRange (h : PeerInv [] s) (hr : IdRange s) (c : Cfg α) (e : Env α) (a : NewPeer) :
    IdRange (s.newpeer c e a).1 := by
  cases hgo : refusePeer c e s a with
  | true =>
    unfold newpeer
    simp only [hgo, if_true]
    exact hr
  | false =>
    obtain ⟨ptr, p, s1, hmob, ⟨-, heq⟩ | ⟨q, hstart, heq⟩⟩ := newpeer_mobilizes h hgo
    · obtain ⟨hnext, hlist, hmem⟩ := hmob.giveBack
      rw [heq]
      refine ⟨hnext ▸ nextAssocId_range _, ?_⟩
      intro x hx
      rw [hlist] at hx
      rw [hmem x hx]
      exact hr.live x hx
    · obtain ⟨hnext, hlist, hnew, hmem⟩ := hmob.putOn hstart
      rw [heq]
      refine ⟨hnext ▸ nextAssocId_range _, ?_⟩
      intro x hx
      rw [hlist, mem_cons] at hx
      rcases hx with rfl | hx
      · rw [hnew]
        exact hr.next
      · rw [hmem x hx]
        exact hr.live x hx

/-- No association is made, or the next identifier is free. -/
def FreshRequest (c : Cfg α) (e : Env α) (s : PeerMem α) (a : NewPeer) : Prop :=
  refusePeer c e s a = true ∨ ¬ DriverStarts c e a ∨ FreshId s

instance (c : Cfg α) (e : Env α) (s : PeerMem α) (a : NewPeer) :
    Decidable (FreshRequest c e s a) :=
  inferInstanceAs (Decidable (_ ∨ _ ∨ _))

theorem newpeer_unique_iff (h : PeerInv [] s) (hu : IdUnique s) :
    IdUnique (s.newpeer c e a).1 ↔ FreshRequest c e s a := by
  unfold FreshRequest
  cases hgo : refusePeer c e s a with
  | true =>
    unfold newpeer
    simp only [hgo, if_true, true_or, iff_true]
    exact hu
  | false =>
    obtain ⟨ptr, p, s1, hmob, ⟨hnone, heq⟩ | ⟨q, hstart, heq⟩⟩ := newpeer_mobilizes h hgo
    · obtain ⟨-, hlist, hmem⟩ := hmob.giveBack
      have hdriver : ¬ DriverStarts c e a := by
        rw [← hmob.starts_iff, hnone]
        exact Bool.false_ne_true
      refine iff_of_true ?_ (.inr (.inl hdriver))
      rw [heq]
      intro x hx y hy hid
      rw [hlist] at hx hy
      rw [hmem x hx, hmem y hy] at hid
      exact hu x hx y hy hid
    · obtain ⟨-, hlist, hnew, hmem⟩ := hmob.putOn hstart
      have hdriver : DriverStarts c e a := hmob.starts_iff.mp (by rw [hstart]; rfl)
      have hnot := hmob.not_mem
      rw [heq]
      simp only [Bool.false_eq_true, false_or, hdriver, not_true]
      constructor
      · -- An association with the next identifier would be the new one.
        intro hunique x hx hid
        have hxnew := hunique x (hlist ▸ mem_cons_of_mem _ hx) ptr
          (hlist ▸ mem_cons_self) (by rw [hmem x hx, hnew, hid])
        exact hnot (hxnew ▸ hx)
      · intro hfresh x hx y hy hid
        rw [hlist, mem_cons] at hx hy
        rcases hx with rfl | hx <;> rcases hy with rfl | hy
        · rfl
        · rw [hnew, hmem y hy] at hid
          exact absurd hid.symm (hfresh y hy)
        · rw [hnew, hmem x hx] at hid
          exact absurd hid (hfresh x hx)
        · rw [hmem x hx, hmem y hy] at hid
          exact hu x hx y hy hid

end Mobilize

/-! ### Runs -/

section Runs

variable {α : Type} [Field α] [LinearOrder α]

theorem peerStep_keepsIds (c : Cfg α) (s : PeerMem α) (e : PeerEvent α) (h : PeerInv [] s)
    (he : ∀ env a, e ≠ .newpeer env a) : KeepsIds s (peerStep c s e) := by
  have hrefl : KeepsIds s s := ⟨rfl, fun _ hptr => ⟨hptr, rfl⟩⟩
  cases e with
  | newpeer env a => exact absurd rfl (he env a)
  | unpeer ptr =>
    unfold peerStep
    simp only
    split_ifs
    · exact keepsIds_unpeer h ptr
    · exact hrefl
  | setPeerdstadr ptr dstadr =>
    unfold peerStep
    simp only
    split_ifs
    · exact keepsIds_setPeerdstadr s ptr dstadr
    · exact hrefl
  | change ptr p =>
    unfold peerStep
    simp only
    split_ifs with hptr
    · exact keepsIds_store s (sameIndexed_iff.mp hptr.2).associd
    · exact hrefl
  | clock current_time initializing => exact ⟨rfl, fun _ hptr => ⟨hptr, rfl⟩⟩

theorem exec_idRange (c : Cfg α) {associd : Nat} (hid : 0 < associd ∧ associd < 2 ^ 16)
    (es : List (PeerEvent α)) : IdRange (Run.exec (peerStep c) (initPeers associd) es) := by
  have hstep : ∀ s e, (PeerInv [] s ∧ IdRange s) → True →
      PeerInv [] (peerStep c s e) ∧ IdRange (peerStep c s e) := by
    rintro s e ⟨hinv, hrange⟩ -
    refine ⟨peerStep_inv c s e hinv, ?_⟩
    by_cases he : ∃ env a, e = .newpeer env a
    · obtain ⟨env, a, rfl⟩ := he
      exact newpeer_idRange hinv hrange c env a
    · exact (peerStep_keepsIds c s e hinv fun env a heq => he ⟨env, a, heq⟩).range hrange
  have hstart : IdRange (initPeers associd : PeerMem α) := ⟨hid, nofun⟩
  exact (exec_invariant hstep _ es ⟨initPeers_inv associd, hstart⟩ (meets_true _ _ es)).2

/-- The condition on steps: every request is fresh. -/
def FreshStep (c : Cfg α) (s : PeerMem α) : PeerEvent α → Prop
  | .newpeer e a => FreshRequest c e s a
  | _ => True

instance (c : Cfg α) (s : PeerMem α) : (e : PeerEvent α) → Decidable (FreshStep c s e)
  | .newpeer e a => inferInstanceAs (Decidable (FreshRequest c e s a))
  | .unpeer _ | .setPeerdstadr _ _ | .change _ _ | .clock _ _ => inferInstanceAs (Decidable True)

theorem exec_idUnique (c : Cfg α) (associd : Nat) (es : List (PeerEvent α))
    (hes : Run.Meets (peerStep c) (FreshStep c) (initPeers associd) es) :
    IdUnique (Run.exec (peerStep c) (initPeers associd) es) := by
  have hstep : ∀ s e, (PeerInv [] s ∧ IdUnique s) → FreshStep c s e →
      PeerInv [] (peerStep c s e) ∧ IdUnique (peerStep c s e) := by
    rintro s e ⟨hinv, hunique⟩ hfresh
    refine ⟨peerStep_inv c s e hinv, ?_⟩
    by_cases he : ∃ env a, e = .newpeer env a
    · obtain ⟨env, a, rfl⟩ := he
      exact (newpeer_unique_iff hinv hunique).mpr hfresh
    · exact (peerStep_keepsIds c s e hinv fun env a heq => he ⟨env, a, heq⟩).unique hunique
  have hstart : IdUnique (initPeers associd : PeerMem α) := nofun
  exact (exec_invariant hstep _ es ⟨initPeers_inv associd, hstart⟩ hes).2

end Runs

variable {n : Nat}

section Wrap

/-- A request for an association with another server. -/
def otherRequest : NewPeer := { serverRequest with srcadr := { addr := 0xc0000203 } }

/-- An association with the other server comes and goes. -/
def comeAndGo : List (PeerEvent ℚ) := [.newpeer idleEnv otherRequest, .unpeer 2]

/-- One association lives, another comes and goes a number of times, and is there again. -/
def wrapRun (times : Nat) : List (PeerEvent ℚ) :=
  .newpeer idleEnv serverRequest
    :: ((List.replicate times comeAndGo).flatten ++ [.newpeer idleEnv otherRequest])

/-- The first association is alone, and the next identifier is `n`. -/
structure Alone (n : Nat) (s : PeerMem ℚ) : Prop where
  inv : PeerInv [] s
  list : s.peer_list = [1]
  old : (s.mem 1).associd = 1
  addr : (s.mem 1).srcadr = serverRequest.srcadr
  free : ∃ rest, s.peer_free = 2 :: rest
  next : s.current_association_ID = n

/-- The other association is there too, with identifier `n`. -/
structure Joined (n : Nat) (s : PeerMem ℚ) : Prop where
  inv : PeerInv [] s
  list : s.peer_list = [2, 1]
  old : (s.mem 1).associd = 1
  addr : (s.mem 1).srcadr = serverRequest.srcadr
  new : (s.mem 2).associd = n
  next : s.current_association_ID = nextAssocId n

theorem Alone.newpeer {s : PeerMem ℚ} (h : Alone n s) :
    Joined n (s.newpeer defaultCfg idleEnv otherRequest).1 := by
  have hgo : refusePeer defaultCfg idleEnv s otherRequest = false := by
    have hname : otherRequest.hostname = none := rfl
    have hother : otherRequest.srcadr.addrPortEq serverRequest.srcadr = false := by decide
    have hexist : isExisting otherRequest (s.mem 1) = false := by
      simp [isExisting, hname, h.addr, hother]
    rw [refusePeer_eq h.inv, h.list]
    simp only [any_cons, any_nil, isDuplicate, hexist, Bool.false_and, Bool.or_false]
    decide
  have hdriver : DriverStarts defaultCfg idleEnv otherRequest := by decide
  have hinv := newpeer_inv h.inv defaultCfg idleEnv otherRequest
  rcases newpeer_mobilizes h.inv hgo with ⟨ptr, p, s1, hmob, ⟨hnone, -⟩ | ⟨q, hstart, heq⟩⟩
  · have hsome := hmob.starts_iff.mpr hdriver
    rw [hnone] at hsome
    exact absurd hsome Bool.false_ne_true
  · obtain ⟨rest, hfree⟩ := h.free
    obtain ⟨hptr, -⟩ := hmob.free 2 rest hfree
    subst hptr
    obtain ⟨hnext, hlist, hnew, hmem⟩ := hmob.putOn hstart
    have hone : 1 ∈ s.peer_list := by rw [h.list]; exact mem_cons_self
    rw [heq] at hinv ⊢
    refine ⟨hinv, by rw [hlist, h.list], ?_, ?_, by rw [hnew, h.next], by rw [hnext, h.next]⟩
    · rw [hmem 1 hone, h.old]
    · rw [hmem 1 hone, h.addr]

theorem Joined.unpeer {s : PeerMem ℚ} (h : Joined n s) : Alone (nextAssocId n) (s.unpeer 2) := by
  have htwo : 2 ∈ s.peer_list := by rw [h.list]; exact mem_cons_self
  have hmem : (s.unpeer 2).mem 1 = s.mem 1 := unpeer_mem s (by decide)
  refine ⟨unpeer_inv h.inv htwo, ?_, ?_, ?_, ⟨_, rfl⟩, ?_⟩
  · rw [unpeer_list, h.list, erase_cons_head]
  · rw [hmem, h.old]
  · rw [hmem, h.addr]
  · rw [(keepsIds_unpeer h.inv 2).next, h.next]

theorem Alone.comeAndGo {s : PeerMem ℚ} (h : Alone n s) :
    Alone (nextAssocId n) (Run.exec (peerStep defaultCfg) s comeAndGo) := by
  have hjoined := h.newpeer
  have htwo : 2 ∈ (s.newpeer defaultCfg idleEnv otherRequest).1.peer_list := by
    rw [hjoined.list]
    exact mem_cons_self
  have hrun : Run.exec (peerStep defaultCfg) s PeerMem.comeAndGo =
      (s.newpeer defaultCfg idleEnv otherRequest).1.unpeer 2 := if_pos htwo
  rw [hrun]
  exact hjoined.unpeer

theorem Alone.repeat {s : PeerMem ℚ} (h : Alone n s) (k : Nat) :
    Alone (nextAssocId^[k] n)
      (Run.exec (peerStep defaultCfg) s (List.replicate k PeerMem.comeAndGo).flatten) := by
  induction k generalizing n s with
  | zero => exact h
  | succ k ih =>
    exact ih h.comeAndGo

/-- Identifiers are in order as long as they do not wrap around. -/
theorem nextAssocId_iterate {k : Nat} (h : n + k < 2 ^ 16) : nextAssocId^[k] n = n + k := by
  induction k with
  | zero => rfl
  | succ k ih =>
    rw [iterate_succ_apply', ih (by omega)]
    unfold nextAssocId
    rw [if_neg (by omega), Nat.mod_eq_of_lt (by omega), add_assoc]

theorem exec_wrapRun (times : Nat) :
    Joined (nextAssocId^[times] 2)
      (Run.exec (peerStep defaultCfg) (initPeers 1) (wrapRun times)) := by
  have hstart : Alone 2 (peerStep defaultCfg (initPeers 1) (.newpeer idleEnv serverRequest)) := by
    refine ⟨peerStep_inv _ _ _ (initPeers_inv 1), ?_, ?_, ?_, ⟨List.range' 3 6, ?_⟩, ?_⟩ <;>
      decide
  unfold wrapRun
  rw [exec_cons, exec_append]
  exact (hstart.repeat times).newpeer

end Wrap

end NtpSuite.PeerMem
