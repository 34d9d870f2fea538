import NtpSuite.Core.Endpoint

/-!
# One More Endpoint

What has to be true of the lists of endpoints, and what a new endpoint does to
them.

Every list should hold only endpoints that are on `ep_list`, and `ep_list`
only ones that have not been freed. `IoInv` says so for `ep_list`,
`remoteaddr_list` and the single endpoints, and `McInv` for the lists for
multicasts. They are kept apart because the second does not always hold.

A new endpoint is allocated and then linked, and in between it may already be
found under its address. `Growing` describes the state before it is linked and
`Grown` the state afterwards; only then do the invariants hold again. An
endpoint that cannot be used is freed at once.

Endpoints are changed all the time, but not in what decides where they are
kept: `Interface.Like`.

## Main definitions

* `Interface.Like`: What decides where an endpoint is kept is unchanged.
* `IoInv`, `McInv`: The lists hold only endpoints that are on `ep_list`.
* `Growing`, `Grown`: There is one more endpoint.

## Theorems

* `createInterface_cases`: What becomes of a new endpoint.
* `Grown.inv`, `Grown.mcInv`: One more endpoint keeps the invariants.
* `discard_inv`, `discard_mcInv`: So does one that is freed at once.
-/

namespace NtpSuite

open Function List

/-! ### Endpoints -/

/-- What decides where an endpoint is kept is unchanged. -/
structure Interface.Like (e e' : Interface) : Prop where
  sin : e'.sin = e.sin
  multicast : e'.has INT_MULTICAST = e.has INT_MULTICAST
  wildcard : e'.has INT_WILDCARD = e.has INT_WILDCARD
  fixed : e'.has (INT_WILDCARD ||| INT_MCASTIF) = e.has (INT_WILDCARD ||| INT_MCASTIF)

theorem Interface.Like.of_flags {e e' : Interface} (hsin : e'.sin = e.sin)
    (hflags : e'.flags = e.flags) : Interface.Like e e' := by
  have hhas : ∀ m, e'.has m = e.has m := by
    unfold Interface.has
    simp [hflags]
  exact ⟨hsin, hhas _, hhas _, hhas _⟩

variable (e : Interface) (c : IoCfg) {f : Interface → Interface} {s t : IoSys} {addr : SockAddr}

theorem Interface.Like.refl : Interface.Like e e := .of_flags rfl rfl

theorem Interface.Like.trans {e e' e'' : Interface} (h : Interface.Like e e')
    (h' : Interface.Like e' e'') : Interface.Like e e'' :=
  ⟨h'.sin.trans h.sin, h'.multicast.trans h.multicast, h'.wildcard.trans h.wildcard,
    h'.fixed.trans h.fixed⟩

theorem has_or {m f : BitVec 32} (hmf : m &&& f = 0) (e : Interface) :
    ({ e with flags := e.flags ||| f } : Interface).has m = e.has m := by
  unfold Interface.has
  simp [BitVec.and_or_distrib_left, hmf]

theorem like_mcastopen : Interface.Like e { e with flags := e.flags ||| INT_MCASTOPEN } :=
  ⟨rfl, has_or (by decide) e, has_or (by decide) e, has_or (by decide) e⟩

theorem refreshInterface_spec (reopens : Bool) (e : Interface) :
    Interface.Like e (refreshInterface c reopens e).1 ∧
      (refreshInterface c reopens e).1.phase = e.phase ∧
      (refreshInterface c reopens e).1.ignore_packets = e.ignore_packets := by
  unfold refreshInterface
  split_ifs
  · exact ⟨.of_flags rfl rfl, rfl, rfl⟩
  · exact ⟨.refl e, rfl, rfl⟩

theorem markPresent_spec (phase : Bool) (enumep e : Interface) :
    Interface.Like e (markPresent phase enumep e) ∧
      (markPresent phase enumep e).phase = phase ∧
      (markPresent phase enumep e).fd = e.fd := by
  refine ⟨?_, rfl, ?_⟩
  · unfold markPresent
    simp only
    split_ifs <;> exact .of_flags rfl rfl
  · unfold markPresent
    simp only
    split_ifs <;> rfl

/-! ### The invariants -/

/-- The lists hold endpoints that are on `ep_list`, and `ep_list` holds
    endpoints that are allocated. -/
structure IoInv (s : IoSys) : Prop where
  nodup : s.ep_list.Nodup
  lt : ∀ p ∈ s.ep_list, p < s.allocated
  live : ∀ p ∈ s.ep_list, p ∉ s.freed
  freed : ∀ p ∈ s.freed, p < s.allocated
  remote : ∀ r ∈ s.remoteaddr_list, ∀ p, r.2 = some p → p ∈ s.ep_list
  loopback : ∀ p, s.loopback_interface = some p → p ∈ s.ep_list
  wild4 : ∀ p, s.wildipv4 = some p → p ∈ s.ep_list ∧ (s.mem p).has INT_WILDCARD = true
  wild6 : ∀ p, s.wildipv6 = some p → p ∈ s.ep_list ∧ (s.mem p).has INT_WILDCARD = true
  count : s.ninterfaces = s.ep_list.length

/-- The lists for multicasts hold endpoints that are on `ep_list` and that
    `remove_interface` would look for there. -/
structure McInv (s : IoSys) : Prop where
  mc4 : ∀ p ∈ s.mc4_list, p ∈ s.ep_list ∧ (s.mem p).has INT_MULTICAST = true ∧
    (s.mem p).sin.af = .inet
  mc6 : ∀ p ∈ s.mc6_list, p ∈ s.ep_list ∧ (s.mem p).has INT_MULTICAST = true ∧
    (s.mem p).sin.af ≠ .inet
  nodup4 : s.mc4_list.Nodup
  nodup6 : s.mc6_list.Nodup

theorem modify_like {p : Nat} (hf : Interface.Like (s.mem p) (f (s.mem p))) (q : Nat) :
    Interface.Like (s.mem q) ((s.modify p f).mem q) := by
  unfold IoSys.modify
  simp only
  by_cases hq : q = p
  · rw [hq, update_self]
    exact hf
  · rw [update_of_ne hq]
    exact .refl _

theorem IoInv.modify (h : IoInv s) {p : Nat}
    (hf : Interface.Like (s.mem p) (f (s.mem p))) : IoInv (s.modify p f) :=
  have hwild := fun q => (modify_like hf q).wildcard
  { h with
    wild4 := fun q hq => (h.wild4 q hq).imp_right (hwild q).trans
    wild6 := fun q hq => (h.wild6 q hq).imp_right (hwild q).trans }

theorem McInv.modify (h : McInv s) {p : Nat}
    (hf : Interface.Like (s.mem p) (f (s.mem p))) : McInv (s.modify p f) := by
  refine { h with mc4 := fun q hq => ?_, mc6 := fun q hq => ?_ }
  · rw [(modify_like hf q).multicast, (modify_like hf q).sin]
    exact h.mc4 q hq
  · rw [(modify_like hf q).multicast, (modify_like hf q).sin]
    exact h.mc6 q hq

/-! ### One more endpoint -/

theorem mcastLoop_sublist (mem : Nat → Interface) (ep : Interface) (rest l : List Nat) :
    (mcastLoop mem ep rest l).1.Sublist l := by
  induction rest generalizing l with
  | nil => exact List.Sublist.refl l
  | cons scan rest ih =>
    simp only [mcastLoop]
    split_ifs
    · exact ih l
    · exact List.Sublist.refl l
    · exact (ih _).trans erase_sublist
    · exact ih l

theorem addMcast_spec (mem : Nat → Interface) (p : Nat) (l : List Nat) :
    (∀ q ∈ addMcast mem p l, q ∈ l ∨ q = p) ∧ (l.Nodup → p ∉ l → (addMcast mem p l).Nodup) := by
  have hsub := mcastLoop_sublist mem (mem p) l l
  unfold addMcast
  simp only
  split_ifs
  · exact ⟨fun q hq => .inl (hsub.mem hq), fun hl _ => hl.sublist hsub⟩
  · refine ⟨?_, ?_⟩
    · intro q hq
      rcases mem_append.mp hq with hq | hq
      · exact .inl (hsub.mem hq)
      · exact .inr (mem_singleton.mp hq)
    · intro hl hp
      rw [nodup_append]
      refine ⟨hl.sublist hsub, nodup_singleton p, ?_⟩
      intro a ha b hb hab
      rw [mem_singleton] at hb
      rw [← hb, ← hab] at hp
      exact hp (hsub.mem ha)
  · refine ⟨?_, ?_⟩
    · intro q hq
      rcases mem_cons.mp hq with hq | hq
      · exact .inr hq
      · exact .inl (hsub.mem hq)
    · intro hl hp
      exact nodup_cons.mpr ⟨fun hq => hp (hsub.mem hq), hl.sublist hsub⟩

theorem addedMcast_spec {mem : Nat → Interface} {p : Nat} {l l' : List Nat} {Q : Prop}
    (h : l' = l ∨ l' = addMcast mem p l ∧ Q) :
    (∀ q ∈ l', q ∈ l ∨ q = p ∧ Q) ∧ (l.Nodup → p ∉ l → l'.Nodup) := by
  rcases h with rfl | ⟨rfl, hQ⟩
  · exact ⟨fun q hq => .inl hq, fun hl _ => hl⟩
  · obtain ⟨hmem, hnodup⟩ := addMcast_spec mem p l
    exact ⟨fun q hq => (hmem q hq).imp_right fun hqp => ⟨hqp, hQ⟩, hnodup⟩

/-- An endpoint has been allocated, to be found under an address. -/
structure Fresh (s : IoSys) (addr : SockAddr) (t : IoSys) : Prop where
  old : ∀ q, q ≠ s.allocated → t.mem q = s.mem q
  phase : (t.mem s.allocated).phase = s.sys_interphase
  allocated : t.allocated = s.allocated + 1
  freed : t.freed = s.freed
  interphase : t.sys_interphase = s.sys_interphase
  rules : t.nic_rule_list = s.nic_rule_list
  wild4 : t.wildipv4 = s.wildipv4
  wild6 : t.wildipv6 = s.wildipv6
  remote : t.remoteaddr_list = s.remoteaddr_list ∨
    t.remoteaddr_list = (addr, some s.allocated) :: s.remoteaddr_list
  loopback : ∀ q, t.loopback_interface = some q → s.loopback_interface = some q ∨ q = s.allocated

/-- It is not on a list yet. -/
structure Growing (s : IoSys) (addr : SockAddr) (t : IoSys) : Prop extends Fresh s addr t where
  ep_list : t.ep_list = s.ep_list
  count : t.ninterfaces = s.ninterfaces
  mc4 : t.mc4_list = s.mc4_list
  mc6 : t.mc6_list = s.mc6_list

/-- It is on `ep_list`, and on a list for multicasts only if it is for those. -/
structure Grown (s : IoSys) (addr : SockAddr) (t : IoSys) : Prop extends Fresh s addr t where
  ep_list : t.ep_list = s.ep_list ++ [s.allocated]
  count : t.ninterfaces = s.ninterfaces + 1
  mc4 : ∀ q ∈ t.mc4_list, q ∈ s.mc4_list ∨ q = s.allocated ∧
    (t.mem s.allocated).has INT_MULTICAST = true ∧ (t.mem s.allocated).sin.af = .inet
  mc6 : ∀ q ∈ t.mc6_list, q ∈ s.mc6_list ∨ q = s.allocated ∧
    (t.mem s.allocated).has INT_MULTICAST = true ∧ (t.mem s.allocated).sin.af ≠ .inet
  nodup4 : s.mc4_list.Nodup → s.allocated ∉ s.mc4_list → t.mc4_list.Nodup
  nodup6 : s.mc6_list.Nodup → s.allocated ∉ s.mc6_list → t.mc6_list.Nodup

@[simp] theorem newInterface_snd (s : IoSys) (e : Interface) :
    (newInterface s e).2 = s.allocated := rfl

@[simp] theorem newInterface_self (s : IoSys) (e : Interface) :
    (newInterface s e).1.mem s.allocated = e := update_self ..

@[simp] theorem addAddrToList_mem (s : IoSys) (addr : SockAddr) (ep : Option Nat) :
    (addAddrToList c s addr ep).mem = s.mem := by
  unfold addAddrToList
  split_ifs <;> rfl

theorem newInterface_growing (s : IoSys) (addr : SockAddr) {e : Interface}
    (hphase : e.phase = s.sys_interphase) : Growing s addr (newInterface s e).1 where
  old := fun _ hq => update_of_ne hq _ _
  phase := by simp [hphase]
  allocated := rfl
  freed := rfl
  interphase := rfl
  rules := rfl
  wild4 := rfl
  wild6 := rfl
  remote := .inl rfl
  loopback := fun _ hq => .inl hq
  ep_list := rfl
  count := rfl
  mc4 := rfl
  mc6 := rfl

theorem Fresh.modify (h : Fresh s addr t) (hf : ∀ e, (f e).phase = e.phase) :
    Fresh s addr (t.modify s.allocated f) :=
  { h with
    old := fun q hq => (update_of_ne hq _ _).trans (h.old q hq)
    phase := by simp [IoSys.modify, hf, h.phase] }

theorem Growing.modify (h : Growing s addr t) (hf : ∀ e, (f e).phase = e.phase) :
    Growing s addr (t.modify s.allocated f) :=
  { h with toFresh := h.toFresh.modify hf }

theorem Grown.modify (h : Grown s addr t)
    (hf : ∀ e, Interface.Like e (f e) ∧ (f e).phase = e.phase) :
    Grown s addr (t.modify s.allocated f) :=
  have hlike := (hf (t.mem s.allocated)).1
  { h with
    toFresh := h.toFresh.modify fun e => (hf e).2
    mc4 := by simpa [IoSys.modify, hlike.multicast, hlike.sin] using h.mc4
    mc6 := by simpa [IoSys.modify, hlike.multicast, hlike.sin] using h.mc6 }

theorem Fresh.addAddr (h : Fresh s addr t) (hr : t.remoteaddr_list = s.remoteaddr_list)
    (c : IoCfg) : Fresh s addr (addAddrToList c t addr (some s.allocated)) := by
  unfold addAddrToList
  split_ifs
  · exact h
  · exact { h with remote := .inr (by rw [hr]) }

theorem Growing.addAddr (h : Growing s addr t) (hr : t.remoteaddr_list = s.remoteaddr_list)
    (c : IoCfg) : Growing s addr (addAddrToList c t addr (some s.allocated)) := by
  have hfresh := h.toFresh.addAddr hr c
  unfold addAddrToList at hfresh ⊢
  split_ifs at hfresh ⊢
  · exact h
  · exact { h with toFresh := hfresh }

theorem Grown.addAddr (h : Grown s addr t) (hr : t.remoteaddr_list = s.remoteaddr_list)
    (c : IoCfg) : Grown s addr (addAddrToList c t addr (some s.allocated)) := by
  have hfresh := h.toFresh.addAddr hr c
  unfold addAddrToList at hfresh ⊢
  split_ifs at hfresh ⊢
  · exact h
  · exact { h with toFresh := hfresh }

theorem Growing.setLoopback (h : Growing s addr t) :
    Growing s addr { t with loopback_interface := some s.allocated } :=
  { h with loopback := fun _ hq => .inr (Option.some.inj hq).symm }

theorem addInterface_eq (t : IoSys) (p : Nat) :
    ∃ mc4 mc6, addInterface c t p = { t with
      ep_list := t.ep_list ++ [p], ninterfaces := t.ninterfaces + 1
      mc4_list := mc4, mc6_list := mc6 } ∧
    (mc4 = t.mc4_list ∨ mc4 = addMcast t.mem p t.mc4_list ∧
      (t.mem p).has INT_MULTICAST = true ∧ (t.mem p).sin.af = .inet) ∧
    (mc6 = t.mc6_list ∨ mc6 = addMcast t.mem p t.mc6_list ∧
      (t.mem p).has INT_MULTICAST = true ∧ (t.mem p).sin.af ≠ .inet) := by
  unfold addInterface
  simp only
  split_ifs with hno h4 h6
  · exact ⟨_, _, rfl, .inl rfl, .inl rfl⟩
  · exact ⟨_, _, rfl, .inr ⟨rfl, by simp_all, h4⟩, .inl rfl⟩
  · exact ⟨_, _, rfl, .inl rfl, .inr ⟨rfl, by simp_all, h4⟩⟩
  · exact ⟨_, _, rfl, .inl rfl, .inl rfl⟩

@[simp] theorem addInterface_remote (t : IoSys) (p : Nat) :
    (addInterface c t p).remoteaddr_list = t.remoteaddr_list := by
  obtain ⟨mc4, mc6, heq, -, -⟩ := addInterface_eq c t p
  rw [heq]

@[simp] theorem addInterface_mem (t : IoSys) (p : Nat) : (addInterface c t p).mem = t.mem := by
  obtain ⟨mc4, mc6, heq, -, -⟩ := addInterface_eq c t p
  rw [heq]

theorem Growing.addInterface (h : Growing s addr t) (c : IoCfg) :
    Grown s addr (addInterface c t s.allocated) := by
  obtain ⟨mc4, mc6, heq, h4, h6⟩ := addInterface_eq c t s.allocated
  rw [h.mc4] at h4
  rw [h.mc6] at h6
  obtain ⟨hmem4, hnodup4⟩ := addedMcast_spec h4
  obtain ⟨hmem6, hnodup6⟩ := addedMcast_spec h6
  rw [heq]
  exact { h.toFresh with
    ep_list := by rw [h.ep_list]
    count := by rw [h.count]
    mc4 := hmem4
    mc6 := hmem6
    nodup4 := hnodup4
    nodup6 := hnodup6 }

theorem Grown.multicastEnable (h : Grown s addr t) (c : IoCfg) (maddr : SockAddr) (joins : Bool) :
    Grown s addr (socketMulticastEnable c t s.allocated maddr joins) := by
  unfold socketMulticastEnable
  split_ifs
  · exact h.modify fun e => ⟨like_mcastopen e, rfl⟩
  · exact h

theorem Grown.joinGroups (h : Grown s addr t) (c : IoCfg) (joins : Bool) :
    Grown s addr (joinGroups c t s.allocated joins) := by
  unfold NtpSuite.joinGroups
  simp only
  split_ifs with hjoin
  · clear hjoin
    generalize t.remoteaddr_list.filter _ = rs
    induction rs generalizing t with
    | nil => exact h
    | cons r rs ih => exact ih (h.multicastEnable c r.1 joins)
  · exact h

theorem createInterface_cases (s : IoSys) {protot : Interface} (opens joins : Bool)
    (hphase : protot.phase = s.sys_interphase) :
    Grown s protot.sin (createInterface c s protot opens joins).1 ∨
    ∃ e, (createInterface c s protot opens joins).1 =
      deleteInterface (newInterface s e).1 s.allocated := by
  unfold createInterface
  cases opens with
  | false => exact .inr ⟨_, rfl⟩
  | true =>
    left
    have hnew : Growing s protot.sin (newInterface s { protot with fd := true }).1 :=
      newInterface_growing s protot.sin hphase
    rw [if_pos rfl, newInterface_snd, newInterface_self]
    apply Grown.joinGroups
    apply Growing.addInterface
    -- The loopback endpoint may be set before it is linked.
    split_ifs
    · exact hnew.setLoopback.addAddr rfl c
    · exact hnew.addAddr rfl c

theorem Grown.kept (h : Grown s addr t) (hs : IoInv s) {q : Nat} (hq : q ∈ s.ep_list) :
    q ∈ t.ep_list ∧ t.mem q = s.mem q := by
  rw [h.ep_list]
  exact ⟨mem_append_left _ hq, h.old q (ne_of_lt (hs.lt q hq))⟩

theorem Grown.inv (h : Grown s addr t) (hs : IoInv s) : IoInv t := by
  have hnew : s.allocated ∈ t.ep_list := by simp [h.ep_list]
  have hcases : ∀ q ∈ t.ep_list, q ∈ s.ep_list ∨ q = s.allocated := by
    simp [h.ep_list]
  -- For the wildcard endpoints.
  have hwild : ∀ q, q ∈ s.ep_list ∧ (s.mem q).has INT_WILDCARD = true →
      q ∈ t.ep_list ∧ (t.mem q).has INT_WILDCARD = true := by
    rintro q ⟨hlist, hflag⟩
    obtain ⟨hkept, hsame⟩ := h.kept hs hlist
    rw [hsame]
    exact ⟨hkept, hflag⟩
  refine ⟨?_, ?_, ?_, ?_, ?_, ?_, ?_, ?_, ?_⟩
  · rw [h.ep_list, nodup_append]
    refine ⟨hs.nodup, nodup_singleton _, ?_⟩
    intro a ha b hb
    rw [mem_singleton.mp hb]
    exact ne_of_lt (hs.lt a ha)
  · intro q hq
    rw [h.allocated]
    rcases hcases q hq with hq | rfl
    · exact Nat.lt_succ_of_lt (hs.lt q hq)
    · exact Nat.lt_succ_self _
  · intro q hq hfreed
    rw [h.freed] at hfreed
    rcases hcases q hq with hq | rfl
    · exact hs.live q hq hfreed
    · exact lt_irrefl _ (hs.freed _ hfreed)
  · intro q hq
    rw [h.freed] at hq
    rw [h.allocated]
    exact Nat.lt_succ_of_lt (hs.freed q hq)
  · intro r hr q hq
    rcases h.remote with heq | heq
    · rw [heq] at hr
      exact (h.kept hs (hs.remote r hr q hq)).1
    · rw [heq] at hr
      rcases mem_cons.mp hr with rfl | hr
      · rw [← Option.some.inj hq]
        exact hnew
      · exact (h.kept hs (hs.remote r hr q hq)).1
  · intro q hq
    rcases h.loopback q hq with hq | rfl
    · exact (h.kept hs (hs.loopback q hq)).1
    · exact hnew
  · intro q hq
    rw [h.wild4] at hq
    exact hwild q (hs.wild4 q hq)
  · intro q hq
    rw [h.wild6] at hq
    exact hwild q (hs.wild6 q hq)
  · rw [h.count, h.ep_list, hs.count]
    simp

theorem Grown.mcInv (h : Grown s addr t) (hs : IoInv s) (hmc : McInv s) : McInv t := by
  have hnew : s.allocated ∈ t.ep_list := by simp [h.ep_list]
  have hfresh : s.allocated ∉ s.ep_list := fun hq => lt_irrefl _ (hs.lt _ hq)
  refine ⟨?_, ?_, ?_, ?_⟩
  · intro q hq
    rcases h.mc4 q hq with hq | ⟨rfl, hmem⟩
    · obtain ⟨hlist, hmem⟩ := hmc.mc4 q hq
      obtain ⟨hkept, hsame⟩ := h.kept hs hlist
      rw [hsame]
      exact ⟨hkept, hmem⟩
    · exact ⟨hnew, hmem⟩
  · intro q hq
    rcases h.mc6 q hq with hq | ⟨rfl, hmem⟩
    · obtain ⟨hlist, hmem⟩ := hmc.mc6 q hq
      obtain ⟨hkept, hsame⟩ := h.kept hs hlist
      rw [hsame]
      exact ⟨hkept, hmem⟩
    · exact ⟨hnew, hmem⟩
  · exact h.nodup4 hmc.nodup4 fun hq => hfresh (hmc.mc4 _ hq).1
  · exact h.nodup6 hmc.nodup6 fun hq => hfresh (hmc.mc6 _ hq).1

theorem discard_old (hs : IoInv s) (e : Interface) {q : Nat} (hq : q ∈ s.ep_list) :
    (deleteInterface (newInterface s e).1 s.allocated).mem q = s.mem q :=
  update_of_ne (ne_of_lt (hs.lt q hq)) _ _

theorem discard_inv (hs : IoInv s) (e : Interface) :
    IoInv (deleteInterface (newInterface s e).1 s.allocated) where
  nodup := hs.nodup
  lt := fun q hq => Nat.lt_succ_of_lt (hs.lt q hq)
  live := by
    intro q hq hfreed
    rcases mem_cons.mp hfreed with rfl | hfreed
    · exact lt_irrefl _ (hs.lt _ hq)
    · exact hs.live q hq hfreed
  freed := by
    intro q hq
    rcases mem_cons.mp hq with rfl | hq
    · exact Nat.lt_succ_self _
    · exact Nat.lt_succ_of_lt (hs.freed q hq)
  remote := hs.remote
  loopback := hs.loopback
  wild4 := by
    intro q hq
    obtain ⟨hlist, hwild⟩ := hs.wild4 q hq
    rw [discard_old hs e hlist]
    exact ⟨hlist, hwild⟩
  wild6 := by
    intro q hq
    obtain ⟨hlist, hwild⟩ := hs.wild6 q hq
    rw [discard_old hs e hlist]
    exact ⟨hlist, hwild⟩
  count := hs.count

theorem discard_mcInv (hs : IoInv s) (hmc : McInv s) (e : Interface) :
    McInv (deleteInterface (newInterface s e).1 s.allocated) where
  mc4 := by
    intro q hq
    obtain ⟨hlist, hmem⟩ := hmc.mc4 q hq
    rw [discard_old hs e hlist]
    exact ⟨hlist, hmem⟩
  mc6 := by
    intro q hq
    obtain ⟨hlist, hmem⟩ := hmc.mc6 q hq
    rw [discard_old hs e hlist]
    exact ⟨hlist, hmem⟩
  nodup4 := hmc.nodup4
  nodup6 := hmc.nodup6

end NtpSuite
