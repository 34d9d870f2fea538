import NtpSuite.Core.Defaults
import NtpSuite.Theory.PeerLists

/-!
# The Lists of Associations Agree

The pieces of `Theory.PeerLists` put together to `newpeer`, `unpeer` and runs
of them. The lists agree after every run. The two counters `peer_associations`
and `peer_preempt` do not: when the driver of a reference clock fails to start,
`newpeer` gives the structure back and leaves the counters as if there were an
association. `newpeer_counted_iff` says that this is the only way they go wrong,
and `indexes_agree` is for runs in which every driver starts.

## Main definitions

* `Mobilizes`: A structure is taken, set up and bound.
* `CleanRequest`, `CleanStep`: The drivers start.
* `Agree`: All lists and all counters are right.

## Theorems

* `unpeer_inv`, `newpeer_inv`: The lists after one call.
* `exec_peerInv`: The lists agree after every run.
* `newpeer_counted_iff`: The counters after one call.
* `indexes_agree`: All counters are right, and failure is clean, if drivers
  start.
-/

namespace NtpSuite.PeerMem

open Function List

section Demobilize

variable {α : Type} [Field α] {s : PeerMem α} {ptr : Nat}

/-! ### Demobilizing -/

theorem setPeerdstadr_list (s : PeerMem α) (ptr : Nat) (dstadr : Option Endpt) :
    (s.setPeerdstadr ptr dstadr).peer_list = s.peer_list := by
  rcases setPeerdstadr_cases s ptr dstadr with ⟨heq, -⟩ | ⟨peers, peercnt, heq⟩ <;> rw [heq]

theorem setPeerdstadr_unbound (s : PeerMem α) (ptr : Nat) :
    ((s.setPeerdstadr ptr none).mem ptr).dstadr = none := by
  rw [setPeerdstadr_mem, update_self, setPeerdstadr_none]

theorem unpeer_inv (h : PeerInv [] s) (hptr : ptr ∈ s.peer_list) : PeerInv [] (s.unpeer ptr) := by
  have hlist := setPeerdstadr_list s ptr none
  have hdst := setPeerdstadr_unbound s ptr
  have h1 := setPeerdstadr_inv h hptr none
  unfold unpeer
  generalize s.setPeerdstadr ptr none = s1 at h1 hlist hdst ⊢
  have h2 : PeerInv [] { s1 with
      peer_demobilizations := s1.peer_demobilizations + 1
      peer_associations := s1.peer_associations - 1
      peer_preempt := if (s1.mem ptr).flags.preempt then s1.peer_preempt - 1
        else s1.peer_preempt } :=
    { h1 with }
  exact freePeer_inv (unlinkPeer_inv h2 (hlist ▸ hptr)) hdst

theorem unpeer_list (s : PeerMem α) (ptr : Nat) :
    (s.unpeer ptr).peer_list = s.peer_list.erase ptr := by
  rw [← setPeerdstadr_list s ptr none]
  rfl

theorem unpeer_mem (s : PeerMem α) {x : Nat} (hne : x ≠ ptr) : (s.unpeer ptr).mem x = s.mem x := by
  have hmem : (s.setPeerdstadr ptr none).mem x = s.mem x := by
    rw [setPeerdstadr_mem, update_of_ne hne]
  exact (update_of_ne hne _ _).trans hmem

theorem unpeer_counted (h : PeerInv [] s) (hc : Counted [] s) (hptr : ptr ∈ s.peer_list) :
    Counted [] (s.unpeer ptr) := by
  have hperm := perm_cons_erase hptr
  have hpreempt : ((s.setPeerdstadr ptr none).mem ptr).flags.preempt =
      (s.mem ptr).flags.preempt := by
    rw [setPeerdstadr_mem, update_self, setPeerdstadr_eq]
  have hcount : ((s.peer_list.erase ptr).countP fun x => ((s.unpeer ptr).mem x).flags.preempt) =
      (s.peer_list.erase ptr).countP fun x => (s.mem x).flags.preempt := by
    apply countP_congr
    intro x hx
    have hne : x ≠ ptr := fun heq => h.list_nodup.not_mem_erase (heq ▸ hx)
    rw [unpeer_mem s hne]
  have hassoc := hc.associations
  have hpre := hc.preempt
  simp only [nil_append] at hpre
  rw [hperm.length_eq] at hassoc
  rw [hperm.countP_eq, countP_cons] at hpre
  refine ⟨?_, ?_⟩
  · rw [unpeer_list]
    have hsame : (s.unpeer ptr).peer_associations = s.peer_associations - 1 := by
      rcases setPeerdstadr_cases s ptr none with ⟨heq, -⟩ | ⟨peers, peercnt, heq⟩ <;>
        simp [unpeer, freePeer, unlinkPeer, heq]
    rw [hsame, hassoc]
    simp only [length_cons, length_nil]
    omega
  · have hsame : (s.unpeer ptr).peer_preempt =
        if (s.mem ptr).flags.preempt then s.peer_preempt - 1 else s.peer_preempt := by
      have hsaved : (s.setPeerdstadr ptr none).peer_preempt = s.peer_preempt := by
        rcases setPeerdstadr_cases s ptr none with ⟨heq, -⟩ | ⟨peers, peercnt, heq⟩ <;> rw [heq]
      rw [← hpreempt, ← hsaved]
      rfl
    rw [hsame, unpeer_list, nil_append, hpre]
    split_ifs <;> push_cast <;> omega

/-! ### Agreement -/

/-- The same associations are on all lists, every counter is the number of what
    it counts, and every structure is on one list or the other. -/
structure Agree (s : PeerMem α) : Prop where
  once : (s.peer_list ++ s.peer_free).Nodup
  byAddr : ∀ b, s.peer_hash b = s.peer_list.filter fun ptr => ntpHashAddr (s.mem ptr).srcadr = b
  addrCount : ∀ b, s.peer_hash_count b = (s.peer_hash b).length
  byId : ∀ b, s.assoc_hash b = s.peer_list.filter fun ptr => assocHash (s.mem ptr).associd = b
  idCount : ∀ b, s.assoc_hash_count b = (s.assoc_hash b).length
  byEndpt : ∀ ep, (s.peers ep).Perm (s.peer_list.filter fun ptr => (s.mem ptr).dstadr = some ep)
  peercnt : ∀ ep, s.peercnt ep = (s.peers ep).length
  associations : s.peer_associations = s.peer_list.length
  preempt : s.peer_preempt = s.peer_list.countP fun ptr => (s.mem ptr).flags.preempt
  freeCount : s.peer_free_count = s.peer_free.length
  total : (s.peer_free.length + s.peer_list.length : Int) = s.total_peer_structs

theorem agree_of_counted (h : PeerInv [] s) (hc : Counted [] s) : Agree s where
  __ := h
  once := h.nodup
  associations := by
    rw [hc.associations]
    simp
  preempt := hc.preempt
  total := by
    rw [h.total]
    simp only [length_nil]
    omega

/-! ### Mobilizing -/

/-- The structure goes back because the driver failed. -/
def giveBack (s : PeerMem α) (ptr : Nat) : PeerMem α :=
  (s.setPeerdstadr ptr none).freePeer ptr false

/-- The association goes to the tables and the list. -/
def putOn (s : PeerMem α) (ptr : Nat) (p : Peer α) : PeerMem α :=
  { s with mem := update s.mem ptr p }.linkPeer ptr

theorem giveBack_inv (h : PeerInv [ptr] s) : PeerInv [] (giveBack s ptr) := by
  have hptr : ptr ∈ [ptr] ++ s.peer_list := mem_cons_self
  exact freePeer_inv (setPeerdstadr_inv h hptr none) (setPeerdstadr_unbound s ptr)

theorem putOn_inv (h : PeerInv [ptr] s) {q : Peer α}
    (hsame : SameIndexed (s.mem ptr) q) : PeerInv [] (putOn s ptr q) :=
  linkPeer_inv (h.store hsame)

theorem giveBack_not_counted (h : Counted [ptr] s) : ¬ Counted [] (giveBack s ptr) := by
  intro hback
  have hgone := hback.associations
  have hassoc := (setPeerdstadr_counted h ptr none).associations
  have hlist : (giveBack s ptr).peer_list = (s.setPeerdstadr ptr none).peer_list := rfl
  have hcount : (giveBack s ptr).peer_associations = (s.setPeerdstadr ptr none).peer_associations :=
    rfl
  rw [hlist, hcount, hassoc] at hgone
  simp only [length_cons, length_nil] at hgone
  omega

end Demobilize

section Mobilize

variable {α : Type} [Field α] [LinearOrder α] {s : PeerMem α}

/-- A structure has been taken for a request, set up and bound. -/
structure Mobilizes (c : Cfg α) (e : Env α) (s : PeerMem α) (a : NewPeer) (ptr : Nat) (p : Peer α)
    (s1 : PeerMem α) : Prop where
  inv : PeerInv [ptr] s1
  init : p = initPeer c e s.vars a ptr
  list : s1.peer_list = s.peer_list
  mem : s1.mem = update s.mem ptr p
  id : s1.current_association_ID = nextAssocId s.current_association_ID
  free : ∀ x rest, s.peer_free = x :: rest → ptr = x ∧ s1.peer_free = rest
  counted : Counted [] s → Counted [ptr] s1

variable {c : Cfg α} {e : Env α} {a : NewPeer}

theorem newpeer_mobilizes (h : PeerInv [] s) (hgo : refusePeer c e s a = false) :
    ∃ ptr p s1, Mobilizes c e s a ptr p s1 ∧
      (startPeer c e a p = none ∧ s.newpeer c e a = (giveBack s1 ptr, none) ∨
        ∃ q, startPeer c e a p = some q ∧ s.newpeer c e a = (putOn s1 ptr q, some ptr)) := by
  obtain ⟨s0, ptr, rest, hs0, hcons, htake⟩ := takePeer_some h c a
  have hfill : PeerInv [] s0 ∧ s0.peer_list = s.peer_list ∧ s0.mem = s.mem ∧
      s0.current_association_ID = s.current_association_ID ∧ (Counted [] s → Counted [] s0) := by
    rw [hs0]
    split_ifs
    · exact ⟨getmorepeermem_inv h, rfl, rfl, rfl, fun hc => ⟨hc.associations, hc.preempt⟩⟩
    · exact ⟨h, rfl, rfl, rfl, id⟩
  obtain ⟨hinv, hlist, hmem, hid, hcounted⟩ := hfill
  obtain ⟨p, hp⟩ : ∃ p, p = initPeer c e s.vars a ptr := ⟨_, rfl⟩
  obtain ⟨hptr, -, -, hpre⟩ := initPeer_indexed c e s.vars a ptr
  rw [← hp] at hptr hpre
  have hnot : ptr ∉ s0.peer_list := hinv.free_not_mem (by rw [hcons]; exact mem_cons_self)
  have hbound := countPeer_inv hinv hcons c a hptr
  have hboundc := fun hc => countPeer_counted (hcounted hc) hnot c a rest hpre
  refine ⟨ptr, p, _, ⟨hbound, hp, ?_, ?_, ?_, ?_, hboundc⟩, ?_⟩
  · rw [bind_eq]
    exact hlist
  · rw [bind_eq, ← hmem]
  · rw [bind_eq, ← hid]
    rfl
  · -- A free list that is not empty is not filled up.
    intro x tail hfree
    have hfilled : s0 = s := by
      rw [hs0, if_neg]
      rw [h.freeCount, hfree, length_cons]
      omega
    rw [hfilled, hfree, List.cons.injEq] at hcons
    rw [bind_eq]
    exact ⟨hcons.1.symm, hcons.2.symm⟩
  · unfold newpeer
    simp only [hgo, Bool.false_eq_true, if_false, htake, ← hp]
    cases hstart : startPeer c e a p with
    | none => exact .inl ⟨rfl, rfl⟩
    | some q => exact .inr ⟨q, rfl, rfl⟩

theorem Mobilizes.sameIndexed {ptr : Nat} {p q : Peer α} {s1 : PeerMem α}
    (h : Mobilizes c e s a ptr p s1) (hstart : startPeer c e a p = some q) :
    SameIndexed (s1.mem ptr) q := by
  rw [h.mem, update_self]
  exact startPeer_sameIndexed hstart

theorem Mobilizes.starts_iff {ptr : Nat} {p : Peer α} {s1 : PeerMem α}
    (h : Mobilizes c e s a ptr p s1) : (startPeer c e a p).isSome = true ↔ DriverStarts c e a := by
  have hsrc : p.srcadr = a.srcadr := by
    rw [h.init]
    exact (initPeer_indexed c e s.vars a ptr).2.2.1
  exact startPeer_isSome hsrc

theorem newpeer_inv (h : PeerInv [] s) (c : Cfg α) (e : Env α) (a : NewPeer) :
    PeerInv [] (s.newpeer c e a).1 := by
  cases hgo : refusePeer c e s a with
  | true =>
    unfold newpeer
    simp only [hgo, if_true]
    exact h
  | false =>
    obtain ⟨ptr, p, s1, hmob, ⟨-, heq⟩ | ⟨q, hstart, heq⟩⟩ := newpeer_mobilizes h hgo
    · rw [heq]
      exact giveBack_inv hmob.inv
    · rw [heq]
      exact putOn_inv hmob.inv (hmob.sameIndexed hstart)

/-- The request is refused, or the driver starts if it is for a reference clock. -/
def CleanRequest (c : Cfg α) (e : Env α) (s : PeerMem α) (a : NewPeer) : Prop :=
  refusePeer c e s a = true ∨ DriverStarts c e a

instance (c : Cfg α) (e : Env α) (s : PeerMem α) (a : NewPeer) :
    Decidable (CleanRequest c e s a) :=
  inferInstanceAs (Decidable (_ ∨ _))

/-- A clean request either changes nothing or makes an association. -/
theorem newpeer_clean (h : PeerInv [] s) (hclean : CleanRequest c e s a) :
    s.newpeer c e a = (s, none) ∨
      ∃ ptr p s1 q, Mobilizes c e s a ptr p s1 ∧ startPeer c e a p = some q ∧
        s.newpeer c e a = (putOn s1 ptr q, some ptr) := by
  cases hgo : refusePeer c e s a with
  | true =>
    left
    unfold newpeer
    simp [hgo]
  | false =>
    obtain ⟨ptr, p, s1, hmob, ⟨hnone, -⟩ | ⟨q, hstart, heq⟩⟩ := newpeer_mobilizes h hgo
    · have hdriver := hclean.resolve_left (by rw [hgo]; exact Bool.false_ne_true)
      have hsome := hmob.starts_iff.mpr hdriver
      rw [hnone] at hsome
      exact absurd hsome Bool.false_ne_true
    · exact .inr ⟨ptr, p, s1, q, hmob, hstart, heq⟩

/-- The counters of associations stay right if and only if the request is clean. -/
theorem newpeer_counted_iff (h : PeerInv [] s) (hc : Counted [] s) :
    Counted [] (s.newpeer c e a).1 ↔ CleanRequest c e s a := by
  constructor
  · intro hcounted
    by_contra hclean
    rw [CleanRequest, not_or, Bool.not_eq_true] at hclean
    obtain ⟨hgo, hdriver⟩ := hclean
    obtain ⟨ptr, p, s1, hmob, ⟨-, heq⟩ | ⟨q, hstart, -⟩⟩ := newpeer_mobilizes h hgo
    · rw [heq] at hcounted
      exact giveBack_not_counted (hmob.counted hc) hcounted
    · exact hdriver (hmob.starts_iff.mp (by rw [hstart]; rfl))
  · intro hclean
    rcases newpeer_clean h hclean with heq | ⟨ptr, p, s1, q, hmob, hstart, heq⟩
    · rw [heq]
      exact hc
    · rw [heq]
      exact linkPeer_counted ((hmob.counted hc).store (hmob.sameIndexed hstart))

end Mobilize

/-! ### Runs -/

section Runs

variable {α : Type} [Field α] [LinearOrder α]

variable (c : Cfg α)

theorem peerStep_inv (s : PeerMem α) (e : PeerEvent α) (h : PeerInv [] s) :
    PeerInv [] (peerStep c s e) := by
  cases e with
  | newpeer e a => exact newpeer_inv h c e a
  | unpeer ptr =>
    unfold peerStep
    simp only
    split_ifs with hptr
    · exact unpeer_inv h hptr
    · exact h
  | setPeerdstadr ptr dstadr =>
    unfold peerStep
    simp only
    split_ifs with hptr
    · exact setPeerdstadr_inv h hptr dstadr
    · exact h
  | change ptr p =>
    unfold peerStep
    simp only
    split_ifs with hptr
    · exact h.store (sameIndexed_iff.mp hptr.2)
    · exact h
  | clock current_time initializing =>
    exact { h with }

theorem exec_peerInv (associd : Nat) (es : List (PeerEvent α)) :
    PeerInv [] (Run.exec (peerStep c) (initPeers associd) es) := by
  refine Run.exec_invariant ?_ _ es (initPeers_inv associd) (Run.meets_true (peerStep c) _ es)
  intro s e h _
  exact peerStep_inv c s e h

/-- The condition on steps: every request is clean. -/
def CleanStep (c : Cfg α) (s : PeerMem α) : PeerEvent α → Prop
  | .newpeer e a => CleanRequest c e s a
  | _ => True

instance (c : Cfg α) (s : PeerMem α) : (e : PeerEvent α) → Decidable (CleanStep c s e)
  | .newpeer e a => inferInstanceAs (Decidable (CleanRequest c e s a))
  | .unpeer _ | .setPeerdstadr _ _ | .change _ _ | .clock _ _ => inferInstanceAs (Decidable True)

theorem peerStep_counted (s : PeerMem α) (e : PeerEvent α) (h : PeerInv [] s) (hc : Counted [] s)
    (hclean : CleanStep c s e) : Counted [] (peerStep c s e) := by
  cases e with
  | newpeer e a => exact (newpeer_counted_iff h hc).mpr hclean
  | unpeer ptr =>
    unfold peerStep
    simp only
    split_ifs with hptr
    · exact unpeer_counted h hc hptr
    · exact hc
  | setPeerdstadr ptr dstadr =>
    unfold peerStep
    simp only
    split_ifs
    · exact setPeerdstadr_counted hc ptr dstadr
    · exact hc
  | change ptr p =>
    unfold peerStep
    simp only
    split_ifs with hptr
    · exact hc.store (sameIndexed_iff.mp hptr.2)
    · exact hc
  | clock current_time initializing => exact ⟨hc.associations, hc.preempt⟩

theorem exec_counted (associd : Nat) (es : List (PeerEvent α))
    (hes : Run.Meets (peerStep c) (CleanStep c) (initPeers associd) es) :
    Counted [] (Run.exec (peerStep c) (initPeers associd) es) := by
  -- The counters are carried together with the lists.
  have hstep : ∀ s e, (PeerInv [] s ∧ Counted [] s) → CleanStep c s e →
      PeerInv [] (peerStep c s e) ∧ Counted [] (peerStep c s e) := by
    intro s e h hclean
    exact ⟨peerStep_inv c s e h.1, peerStep_counted c s e h.1 h.2 hclean⟩
  exact (Run.exec_invariant hstep _ es ⟨initPeers_inv associd, initPeers_counted associd⟩ hes).2

/-- After every run in which the driver of every reference clock starts, all
    lists and counters agree, and a request that fails changes nothing. -/
theorem indexes_agree (c : Cfg α) (associd : Nat) (es : List (PeerEvent α))
    (hes : Run.Meets (peerStep c) (CleanStep c) (initPeers associd) es) :
    let s := Run.exec (peerStep c) (initPeers associd) es
    Agree s ∧ ∀ e a, CleanRequest c e s a → (s.newpeer c e a).2 = none →
      (s.newpeer c e a).1 = s := by
  have hinv := exec_peerInv c associd es
  refine ⟨agree_of_counted hinv (exec_counted c associd es hes), ?_⟩
  intro e a hclean hnone
  rcases newpeer_clean hinv hclean with heq | ⟨ptr, p, s1, q, -, -, heq⟩
  · rw [heq]
  · rw [heq] at hnone
    exact absurd hnone (by simp)

end Runs

/-! ### A driver that fails -/

/-- A request for an association with a server. -/
def serverRequest : NewPeer where
  srcadr := { addr := 0xc0000202 }
  dstadr := some idleEndpt
  hmode := .client
  version := 4
  minpoll := 0
  maxpoll := 0
  flags := { preempt := true }
  cast_flags := { ucast := true }
  key := 0
  ident := none

/-- A request for the local clock, which is at 127.127.1.0. -/
def clockRequest : NewPeer := { serverRequest with srcadr := { addr := 0x7f7f0100 } }

/-- An association with a server is asked for twice and then demobilized. -/
def serverRun : List (PeerEvent ℚ) :=
  [.newpeer idleEnv serverRequest, .newpeer idleEnv serverRequest, .setPeerdstadr 1 none,
    .unpeer 1]

theorem indexes_agree_serverRun :
    Run.Meets (peerStep defaultCfg) (CleanStep defaultCfg) (initPeers 1) serverRun ∧
      Agree (Run.exec (peerStep defaultCfg) (initPeers 1) serverRun) := by
  have hmeets : Run.Meets (peerStep defaultCfg) (CleanStep defaultCfg) (initPeers 1) serverRun := by
    decide
  exact ⟨hmeets, (indexes_agree defaultCfg 1 serverRun hmeets).1⟩

/-- A clock whose driver does not start is counted as an association for good. -/
theorem indexes_disagree :
    let s : PeerMem ℚ := initPeers 1
    let t := (s.newpeer defaultCfg idleEnv clockRequest).1
    (s.newpeer defaultCfg idleEnv clockRequest).2 = none ∧ s.peer_associations = 0 ∧
      t.peer_list = [] ∧ t.peer_associations = 1 ∧ t.peer_preempt = 1 := by
  decide

end NtpSuite.PeerMem
