import NtpSuite.Theory.EndpointGrow

/-!
# Scans

What a scan of the addresses of the host does to the lists of endpoints.

Phase one goes through the addresses and marks the endpoints it finds, or
creates new ones; phase two removes those that are not marked. `IoInv` is kept
whatever is found. `McInv` is kept if the endpoints on the lists for
multicasts that ignore packets are found again: `remove_interface` does not
look for an endpoint that ignores packets on these lists.

An endpoint is found again if an address of the scan leads to it before the
scan. Addresses that come earlier do not get in the way, since an endpoint is
created only under an address that leads nowhere, and they cannot take its
mark away.

## Main definitions

* `Scanned`: What phase one may do.
* `LeadsTo`: The address of the scan leads to the endpoint.
* `Refound`: The scan finds the endpoint again.
* `Gone`: An endpoint is removed.

## Theorems

* `scanStep_cases`: What phase one does with an address.
* `scan_refound`: An endpoint that is found again is marked.
* `goneLoop_spec`: What phase two does.
* `updateInterfaces_inv`, `updateInterfaces_mc`: A scan keeps the invariants.
* `updateInterfaces_keeps`: An endpoint that is found again stays.
-/

namespace NtpSuite

open Function List Option Bool

/-! ### Phase one of a scan -/

variable {c : IoCfg} {i : IscInterface} {e : Interface} {s t : IoSys} {p : Nat}
  {iter : List IscInterface}

theorem enumerated_phase {rules : List NicRule} {phase : Bool}
    (h : enumerated c rules phase i = some e) : e.phase = phase := by
  unfold enumerated at h
  simp only at h
  split_ifs at h
  rw [← some.inj h]
  rfl

/-- What phase one does with an address: nothing, an endpoint is found and marked, or a new one is
    tried because none was found or the one that was could not be opened again. -/
theorem scanStep_cases (c : IoCfg) (s : IoSys) (i : IscInterface) :
    (enumerated c s.nic_rule_list s.sys_interphase i = none ∧ scanStep c s i = s) ∨
    (∃ enumep p, enumerated c s.nic_rule_list s.sys_interphase i = some enumep ∧
      findAddrInList s enumep.sin = some p ∧ (refreshInterface c i.reopens (s.mem p)).2 = true ∧
      scanStep c s i = s.modify p fun _ => markPresent s.sys_interphase enumep
        (refreshInterface c i.reopens (s.mem p)).1) ∨
    ∃ enumep s', enumerated c s.nic_rule_list s.sys_interphase i = some enumep ∧
      scanStep c s i = (createInterface c s' enumep i.opens i.joins).1 ∧
      ((s' = s ∧ ∀ p, findAddrInList s enumep.sin = some p → (s.mem p).has INT_WILDCARD = true) ∨
      ∃ p, findAddrInList s enumep.sin = some p ∧
        (refreshInterface c i.reopens (s.mem p)).2 = false ∧
        s' = s.modify p fun _ => (refreshInterface c i.reopens (s.mem p)).1) := by
  unfold scanStep
  cases henum : enumerated c s.nic_rule_list s.sys_interphase i with
  | none => exact .inl ⟨rfl, rfl⟩
  | some enumep =>
    right
    simp only
    cases hget : getinterface s enumep.sin INT_WILDCARD with
    | none =>
      right
      refine ⟨enumep, s, rfl, rfl, .inl ⟨rfl, ?_⟩⟩
      intro p hp
      unfold getinterface at hget
      simpa [hp] using hget
    | some p =>
      have hfind : findAddrInList s enumep.sin = some p := by
        exact (filter_eq_some_iff.mp hget).1
      simp only
      split_ifs with hrefresh
      · left
        refine ⟨enumep, p, rfl, hfind, hrefresh, ?_⟩
        simp [IoSys.modify]
      · right
        rw [not_eq_true] at hrefresh
        exact ⟨enumep, _, rfl, rfl, .inr ⟨p, hfind, hrefresh, rfl⟩⟩

/-- What phase one may do: endpoints are changed in what does not matter, and ones that were not
    marked have not been switched; others are added, and those are marked. -/
structure Scanned (s t : IoSys) : Prop where
  interphase : t.sys_interphase = s.sys_interphase
  rules : t.nic_rule_list = s.nic_rule_list
  allocated : s.allocated ≤ t.allocated
  like : ∀ p < s.allocated, Interface.Like (s.mem p) (t.mem p)
  untouched : ∀ p < s.allocated, (t.mem p).phase = s.sys_interphase ∨
    (t.mem p).phase = (s.mem p).phase ∧ (t.mem p).ignore_packets = (s.mem p).ignore_packets
  kept : ∀ p ∈ s.ep_list, p ∈ t.ep_list
  added : ∀ p ∈ t.ep_list, p ∈ s.ep_list ∨ (t.mem p).phase = s.sys_interphase
  mc4 : ∀ p ∈ t.mc4_list, p ∈ s.mc4_list ∨ s.allocated ≤ p
  mc6 : ∀ p ∈ t.mc6_list, p ∈ s.mc6_list ∨ s.allocated ≤ p

theorem Scanned.refl (s : IoSys) : Scanned s s where
  interphase := rfl
  rules := rfl
  allocated := le_refl _
  like := fun _ _ => .refl _
  untouched := fun _ _ => .inr ⟨rfl, rfl⟩
  kept := fun _ hp => hp
  added := fun _ hp => .inl hp
  mc4 := fun _ hp => .inl hp
  mc6 := fun _ hp => .inl hp

theorem Scanned.modify (h : Scanned s t) (hlike : Interface.Like (t.mem p) e)
    (hphase : e.phase = s.sys_interphase ∨
      e.phase = (t.mem p).phase ∧ e.ignore_packets = (t.mem p).ignore_packets) :
    Scanned s (t.modify p fun _ => e) := by
  have hmem : ∀ q, (t.modify p fun _ => e).mem q = if q = p then e else t.mem q := by
    intro q
    simp only [IoSys.modify, update_apply]
  refine { h with like := ?_, untouched := ?_, added := ?_ }
  · intro q hq
    exact (h.like q hq).trans (modify_like hlike q)
  · intro q hq
    rw [hmem]
    split_ifs with hqp
    · subst hqp
      rcases hphase with hmark | ⟨hsame, hign⟩
      · exact .inl hmark
      · rw [hsame, hign]
        exact h.untouched q hq
    · exact h.untouched q hq
  · intro q hq
    rw [hmem]
    split_ifs with hqp
    · subst hqp
      rcases hphase with hmark | ⟨hsame, -⟩
      · exact .inr hmark
      · rw [hsame]
        exact h.added q hq
    · exact h.added q hq

theorem Scanned.grown {u : IoSys} {addr : SockAddr} (h : Scanned s t) (ht : IoInv t)
    (hu : Grown t addr u) : Scanned s u where
  interphase := hu.interphase.trans h.interphase
  rules := hu.rules.trans h.rules
  allocated := by
    rw [hu.allocated]
    exact Nat.le_succ_of_le h.allocated
  like := by
    intro q hq
    rw [hu.old q (ne_of_lt (lt_of_lt_of_le hq h.allocated))]
    exact h.like q hq
  untouched := by
    intro q hq
    rw [hu.old q (ne_of_lt (lt_of_lt_of_le hq h.allocated))]
    exact h.untouched q hq
  kept := by
    intro q hq
    rw [hu.ep_list]
    exact mem_append_left _ (h.kept q hq)
  added := by
    intro q hq
    rw [hu.ep_list, mem_append, mem_singleton] at hq
    rcases hq with hq | rfl
    · rw [hu.old q (ne_of_lt (ht.lt q hq))]
      exact h.added q hq
    · rw [hu.phase, h.interphase]
      exact .inr rfl
  mc4 := by
    intro q hq
    rcases hu.mc4 q hq with hq | ⟨rfl, -⟩
    · exact h.mc4 q hq
    · exact .inr h.allocated
  mc6 := by
    intro q hq
    rcases hu.mc6 q hq with hq | ⟨rfl, -⟩
    · exact h.mc6 q hq
    · exact .inr h.allocated

theorem Scanned.discard (h : Scanned s t) (ht : IoInv t) (e : Interface) :
    Scanned s (deleteInterface (newInterface t e).1 t.allocated) := by
  have hold : ∀ q < s.allocated,
      (deleteInterface (newInterface t e).1 t.allocated).mem q = t.mem q := fun q hq =>
    update_of_ne (ne_of_lt (lt_of_lt_of_le hq h.allocated)) _ _
  refine { h with
    allocated := Nat.le_succ_of_le h.allocated, like := ?_, untouched := ?_, added := ?_ }
  · intro q hq
    rw [hold q hq]
    exact h.like q hq
  · intro q hq
    rw [hold q hq]
    exact h.untouched q hq
  · intro q hq
    rw [discard_old ht e hq]
    exact h.added q hq

theorem scanStep_scanned (h : Scanned s t) (ht : IoInv t) (c : IoCfg) (i : IscInterface) :
    Scanned s (scanStep c t i) ∧ IoInv (scanStep c t i) ∧
      (McInv t → McInv (scanStep c t i)) := by
  rcases scanStep_cases c t i with
    ⟨-, heq⟩ | ⟨enumep, p, -, -, -, heq⟩ | ⟨enumep, t', henum, heq, hcases⟩
  · rw [heq]
    exact ⟨h, ht, id⟩
  · -- Found.
    obtain ⟨hlike, -, -⟩ := refreshInterface_spec c i.reopens (t.mem p)
    obtain ⟨hmlike, hmphase, -⟩ := markPresent_spec t.sys_interphase enumep
      (refreshInterface c i.reopens (t.mem p)).1
    rw [heq]
    refine ⟨h.modify (hlike.trans hmlike) (.inl ?_), ht.modify (hlike.trans hmlike),
      fun hmc => hmc.modify (hlike.trans hmlike)⟩
    rw [hmphase, h.interphase]
  · -- A new one is tried.
    have ht' : Scanned s t' ∧ IoInv t' ∧ (McInv t → McInv t') ∧
        t'.sys_interphase = t.sys_interphase := by
      rcases hcases with ⟨rfl, -⟩ | ⟨p, -, -, rfl⟩
      · exact ⟨h, ht, id, rfl⟩
      · obtain ⟨hlike, hphase, hign⟩ := refreshInterface_spec c i.reopens (t.mem p)
        exact ⟨h.modify hlike (.inr ⟨hphase, hign⟩), ht.modify hlike,
          fun hmc => hmc.modify hlike, rfl⟩
    obtain ⟨hscan, hinv, hmcInv, hphase⟩ := ht'
    rw [heq]
    rcases createInterface_cases c t' i.opens i.joins
      ((enumerated_phase henum).trans hphase.symm) with hgrown | ⟨e, hdiscard⟩
    · exact ⟨hscan.grown hinv hgrown, hgrown.inv hinv, fun hmc => hgrown.mcInv hinv (hmcInv hmc)⟩
    · rw [hdiscard]
      exact ⟨hscan.discard hinv e, discard_inv hinv e, fun hmc => discard_mcInv hinv (hmcInv hmc) e⟩

theorem scan_scanned (h : Scanned s t) (ht : IoInv t) (c : IoCfg) (iter : List IscInterface) :
    Scanned s (iter.foldl (scanStep c) t) ∧
      IoInv (iter.foldl (scanStep c) t) ∧ (McInv t → McInv (iter.foldl (scanStep c) t)) := by
  induction iter generalizing t with
  | nil => exact ⟨h, ht, id⟩
  | cons i iter ih =>
    obtain ⟨hstep, hinv, hmc⟩ := scanStep_scanned h ht c i
    obtain ⟨hscan, hinv', hmc'⟩ := ih hstep hinv
    exact ⟨hscan, hinv', fun hm => hmc' (hmc hm)⟩

/-! ### Endpoints that are found again -/

theorem sockEq_congr {a b : SockAddr} (h : a.sockEq b = true) (x : SockAddr) :
    x.sockEq a = x.sockEq b := by
  unfold SockAddr.sockEq at *
  simp only [and_eq_true, or_eq_true, beq_iff_eq] at h
  obtain ⟨⟨haf, haddr⟩, hscope⟩ := h
  rw [haf, haddr]
  rcases hscope with hinet | hscope
  · rw [haf] at hinet
    cases hx : x.af == b.af with
    | false => simp
    | true =>
      rw [beq_iff_eq] at hx
      simp [hx, hinet]
  · rw [hscope]

/-- A new endpoint does not get in the way of one that was found under another address. -/
theorem Fresh.find_iff {addr : SockAddr} (h : Fresh s addr t) (hp : p < s.allocated)
    (haddr : findAddrInList s addr ≠ some p) (a : SockAddr) :
    findAddrInList t a = some p ↔ findAddrInList s a = some p := by
  unfold findAddrInList at *
  rcases h.remote with heq | heq
  · rw [heq]
  · rw [heq, List.find?_cons]
    cases hsame : addr.sockEq a with
    | false => rfl
    | true =>
      have hfind : (s.remoteaddr_list.find? fun r => r.1.sockEq a) =
          s.remoteaddr_list.find? fun r => r.1.sockEq addr := by
        congr 1
        funext r
        exact (sockEq_congr hsame r.1).symm
      rw [hfind]
      simp only [bind_some, some.injEq]
      exact ⟨fun heq => absurd heq.symm (ne_of_lt hp), fun heq => absurd heq haddr⟩

theorem createInterface_other {protot : Interface}
    (hphase : protot.phase = s.sys_interphase) (hp : p < s.allocated)
    (haddr : findAddrInList s protot.sin ≠ some p) (opens joins : Bool) :
    (createInterface c s protot opens joins).1.mem p = s.mem p ∧
    ∀ a, findAddrInList (createInterface c s protot opens joins).1 a = some p ↔
      findAddrInList s a = some p := by
  rcases createInterface_cases c s opens joins hphase with hgrown | ⟨e, hdiscard⟩
  · exact ⟨hgrown.old p (ne_of_lt hp), fun a => hgrown.toFresh.find_iff hp haddr a⟩
  · rw [hdiscard]
    exact ⟨update_of_ne (ne_of_lt hp) _ _, fun a => Iff.rfl⟩

theorem refreshInterface_ok {reopens : Bool} (hfd : e.fd = true)
    (hre : c.os_misses_specific_route_updates = true → reopens = true) :
    (refreshInterface c reopens e).2 = true ∧ (refreshInterface c reopens e).1.fd = true := by
  unfold refreshInterface
  split_ifs with hos
  · exact ⟨hre hos.1, hre hos.1⟩
  · exact ⟨hfd, hfd⟩

/-- The address is used and leads to the endpoint. -/
def LeadsTo (c : IoCfg) (t : IoSys) (p : Nat) (i : IscInterface) : Prop :=
  ∃ e, enumerated c t.nic_rule_list t.sys_interphase i = some e ∧
    findAddrInList t e.sin = some p

theorem leadsTo_iff (henum : enumerated c t.nic_rule_list t.sys_interphase i = some e) :
    LeadsTo c t p i ↔ findAddrInList t e.sin = some p := by
  unfold LeadsTo
  simp [henum]

/-- What phase one does about an endpoint that it can open again. -/
theorem scanStep_tracks (ht : IoInv t) (hp : p ∈ t.ep_list)
    (hwild : (t.mem p).has INT_WILDCARD = false) (hfd : (t.mem p).fd = true)
    (hre : LeadsTo c t p i → c.os_misses_specific_route_updates = true → i.reopens = true) :
    (∀ a, findAddrInList (scanStep c t i) a = some p ↔ findAddrInList t a = some p) ∧
    ((scanStep c t i).mem p).fd = true ∧ ((t.mem p).phase = t.sys_interphase ∨ LeadsTo c t p i →
      ((scanStep c t i).mem p).phase = t.sys_interphase) := by
  have hlt : p < t.allocated := ht.lt p hp
  rcases scanStep_cases c t i with
    ⟨hnone, heq⟩ | ⟨enumep, q, henum, hfind, -, heq⟩ | ⟨enumep, t', henum, heq, hcases⟩
  · -- The address is not used.
    rw [heq]
    refine ⟨fun a => Iff.rfl, hfd, ?_⟩
    rintro (hphase | ⟨e, he, -⟩)
    · exact hphase
    · rw [hnone] at he
      cases he
  · rw [leadsTo_iff henum] at hre
    rw [heq, leadsTo_iff henum]
    by_cases hqp : q = p
    · -- The endpoint is found.
      subst hqp
      obtain ⟨-, hmphase, hmfd⟩ := markPresent_spec t.sys_interphase enumep
        (refreshInterface c i.reopens (t.mem q)).1
      refine ⟨fun a => Iff.rfl, ?_, fun _ => ?_⟩
      · simp only [IoSys.modify, update_self, hmfd]
        exact (refreshInterface_ok hfd (hre hfind)).2
      · simp only [IoSys.modify, update_self, hmphase]
    · -- Another one is.
      refine ⟨fun a => Iff.rfl, ?_, ?_⟩
      · simp only [IoSys.modify, update_of_ne (Ne.symm hqp), hfd]
      · simp only [IoSys.modify, update_of_ne (Ne.symm hqp), hfind, some.injEq]
        exact fun hor => hor.resolve_right hqp
  · -- The address is that of another endpoint or of none.
    rw [leadsTo_iff henum] at hre
    have hother : findAddrInList t enumep.sin ≠ some p := by
      intro hfind
      rcases hcases with ⟨-, hall⟩ | ⟨q, hq, hfails, -⟩
      · rw [hall p hfind] at hwild
        cases hwild
      · rw [hfind, some.injEq] at hq
        subst hq
        rw [(refreshInterface_ok hfd (hre hfind)).1] at hfails
        cases hfails
    have hsame : t'.mem p = t.mem p ∧ t'.remoteaddr_list = t.remoteaddr_list ∧
        t'.allocated = t.allocated ∧ t'.sys_interphase = t.sys_interphase := by
      rcases hcases with ⟨rfl, -⟩ | ⟨q, hq, -, rfl⟩
      · exact ⟨rfl, rfl, rfl, rfl⟩
      · have hpq : p ≠ q := by
          rintro rfl
          exact hother hq
        exact ⟨update_of_ne hpq _ _, rfl, rfl, rfl⟩
    obtain ⟨hmem, hremote, halloc, hphase⟩ := hsame
    have hfind : ∀ a, findAddrInList t' a = findAddrInList t a := by
      intro a
      unfold findAddrInList
      rw [hremote]
    obtain ⟨hmem', hfind'⟩ := createInterface_other (c := c)
      ((enumerated_phase henum).trans hphase.symm) (by rwa [halloc]) (by rwa [hfind])
      i.opens i.joins
    rw [heq, hmem', hmem, leadsTo_iff henum]
    refine ⟨fun a => ?_, hfd, fun hor => hor.resolve_right hother⟩
    rw [hfind', hfind]

/-- An endpoint that the rest of the scan finds again, or that is marked
    already, is marked in the end. -/
theorem scan_marks (ht : IoInv t) (hp : p ∈ t.ep_list)
    (hwild : (t.mem p).has INT_WILDCARD = false) (hfd : (t.mem p).fd = true)
    (hre : ∀ i ∈ iter, LeadsTo c t p i → c.os_misses_specific_route_updates = true →
      i.reopens = true)
    (hfound : (t.mem p).phase = t.sys_interphase ∨ ∃ i ∈ iter, LeadsTo c t p i) :
    ((iter.foldl (scanStep c) t).mem p).phase = t.sys_interphase := by
  induction iter generalizing t with
  | nil =>
    rcases hfound with hmark | ⟨i, hi, -⟩
    · exact hmark
    · cases hi
  | cons i iter ih =>
    obtain ⟨hscan, hinv, -⟩ := scanStep_scanned (.refl t) ht c i
    obtain ⟨hfind, hfd', hmark⟩ := scanStep_tracks ht hp hwild hfd (hre i (by simp))
    have hleads : ∀ j, LeadsTo c (scanStep c t i) p j ↔ LeadsTo c t p j := by
      intro j
      unfold LeadsTo
      simp only [hscan.rules, hscan.interphase, hfind]
    rw [← hscan.interphase]
    apply ih hinv (hscan.kept p hp) ((hscan.like p (ht.lt p hp)).wildcard.trans hwild) hfd'
    · intro j hj hto
      exact hre j (by simp [hj]) ((hleads j).mp hto)
    · rw [hscan.interphase]
      rcases hfound with hdone | ⟨j, hj, hto⟩
      · exact .inl (hmark (.inl hdone))
      · rcases mem_cons.mp hj with rfl | hj
        · exact .inl (hmark (.inr hto))
        · exact .inr ⟨j, hj, (hleads j).mpr hto⟩

/-- The address is one under which the endpoint is found. -/
def finds (c : IoCfg) (s : IoSys) (p : Nat) (i : IscInterface) : Bool :=
  (enumerated c s.nic_rule_list (!s.sys_interphase) i).any fun e =>
    findAddrInList s e.sin = some p

/-- The scan finds the endpoint, which has a socket, and where sockets are
    opened again that works. -/
def Refound (c : IoCfg) (s : IoSys) (iter : List IscInterface) (p : Nat) : Prop :=
  (s.mem p).fd = true ∧ (∃ i ∈ iter, finds c s p i = true) ∧
    (c.os_misses_specific_route_updates = true →
      ∀ i ∈ iter, finds c s p i = true → i.reopens = true)

instance (c : IoCfg) (s : IoSys) (iter : List IscInterface) (p : Nat) :
    Decidable (Refound c s iter p) := by
  unfold Refound
  infer_instance

theorem finds_iff :
    finds c s p i = true ↔ LeadsTo c { s with sys_interphase := !s.sys_interphase } p i := by
  unfold finds LeadsTo
  simp only [Option.any_eq_true, decide_eq_true_eq]
  rfl

theorem scan_refound (hs : IoInv s) (hp : p ∈ s.ep_list)
    (hwild : (s.mem p).has INT_WILDCARD = false) (href : Refound c s iter p) :
    ((iter.foldl (scanStep c) { s with sys_interphase := !s.sys_interphase }).mem p).phase =
      !s.sys_interphase := by
  obtain ⟨hfd, ⟨i, hi, hfinds⟩, hre⟩ := href
  refine scan_marks (t := { s with sys_interphase := !s.sys_interphase }) { hs with } hp hwild hfd
    ?_ ?_
  · intro j hj hto hos
    exact hre hos j hj (finds_iff.mpr hto)
  · exact .inr ⟨i, hi, finds_iff.mp hfinds⟩

/-! ### Phase two of a scan -/

/-- Phase two leaves the endpoint alone. -/
def Stays (s : IoSys) (p : Nat) : Prop :=
  (s.mem p).has (INT_WILDCARD ||| INT_MCASTIF) = true ∨ (s.mem p).phase = s.sys_interphase

theorem has_fixed (h : e.has INT_WILDCARD = true) :
    e.has (INT_WILDCARD ||| INT_MCASTIF) = true := by
  unfold Interface.has at *
  simp only [ne_eq, decide_not, not_eq_true', decide_eq_false_iff_not] at *
  intro hzero
  rw [BitVec.and_comm, BitVec.and_or_distrib_left] at hzero
  exact h (by rw [BitVec.and_comm, (BitVec.or_eq_zero_iff.mp hzero).1]; rfl)

/-- An endpoint is gone. From the list for multicasts it is taken only if it
    does not ignore packets. -/
structure Gone (s : IoSys) (p : Nat) (t : IoSys) : Prop where
  old : ∀ q, q ≠ p → t.mem q = s.mem q
  allocated : t.allocated = s.allocated
  freed : t.freed = p :: s.freed
  interphase : t.sys_interphase = s.sys_interphase
  ep_list : t.ep_list = s.ep_list.erase p
  remote : t.remoteaddr_list = s.remoteaddr_list.filter (·.2 ≠ some p)
  loopback : ∀ q, t.loopback_interface = some q → s.loopback_interface = some q ∧ q ≠ p
  wild4 : t.wildipv4 = s.wildipv4
  wild6 : t.wildipv6 = s.wildipv6
  count : t.ninterfaces = s.ninterfaces - 1
  mc4 : t.mc4_list = if (s.mem p).ignore_packets = false ∧ (s.mem p).has INT_MULTICAST = true ∧
    (s.mem p).sin.af = .inet then s.mc4_list.erase p else s.mc4_list
  mc6 : t.mc6_list = if (s.mem p).ignore_packets = false ∧ (s.mem p).has INT_MULTICAST = true ∧
    (s.mem p).sin.af ≠ .inet then s.mc6_list.erase p else s.mc6_list

theorem removeInterface_eq (s : IoSys) (p : Nat) :
    removeInterface s p = { s with
      mem := update s.mem p { s.mem p with fd := false }
      ep_list := s.ep_list.erase p
      mc4_list := if (s.mem p).ignore_packets = false ∧ (s.mem p).has INT_MULTICAST = true ∧
        (s.mem p).sin.af = .inet then s.mc4_list.erase p else s.mc4_list
      mc6_list := if (s.mem p).ignore_packets = false ∧ (s.mem p).has INT_MULTICAST = true ∧
        (s.mem p).sin.af ≠ .inet then s.mc6_list.erase p else s.mc6_list
      remoteaddr_list := s.remoteaddr_list.filter (·.2 ≠ some p)
      aborted := s.aborted || (s.remoteaddr_list.filter (·.2 ≠ some p)).isEmpty
      ninterfaces := s.ninterfaces - 1 } := by
  unfold removeInterface deleteInterfaceFromList IoSys.modify
  by_cases hmc : (s.mem p).ignore_packets = false ∧ (s.mem p).has INT_MULTICAST = true
  · by_cases haf : (s.mem p).sin.af = .inet
    · simp [hmc.1, hmc.2, haf]
    · simp [hmc.1, hmc.2, haf]
  · have hno : (!(s.mem p).ignore_packets && (s.mem p).has INT_MULTICAST) = false := by
      simpa using hmc
    have hnot : ∀ q : Prop, ¬((s.mem p).ignore_packets = false ∧
        (s.mem p).has INT_MULTICAST = true ∧ q) := fun q hq => hmc ⟨hq.1, hq.2.1⟩
    simp [hno, if_neg (hnot _)]

theorem goneStep_cases (s : IoSys) (p : Nat) :
    (Stays s p ∧ goneStep s p = s) ∨ (¬Stays s p ∧ Gone s p (goneStep s p)) := by
  unfold goneStep
  by_cases hstays : Stays s p
  · exact .inl ⟨hstays, if_pos hstays⟩
  · right
    refine ⟨hstays, ?_⟩
    have hset : ∀ t : IoSys,
        (if t.loopback_interface = some p then { t with loopback_interface := none } else t) =
          { t with loopback_interface :=
            if t.loopback_interface = some p then none else t.loopback_interface } := by
      intro t
      split_ifs <;> rfl
    rw [if_neg (show ¬(_ ∨ _) from hstays)]
    simp only
    rw [hset, removeInterface_eq]
    exact
      { old := fun q hq => update_of_ne hq _ _
        allocated := rfl
        freed := rfl
        interphase := rfl
        ep_list := rfl
        remote := rfl
        loopback := by
          intro q hq
          have hkept : (if s.loopback_interface = some p then none else s.loopback_interface) =
              some q := hq
          split_ifs at hkept with hloop
          exact ⟨hkept, fun hqp => hloop (hqp ▸ hkept)⟩
        wild4 := rfl
        wild6 := rfl
        count := rfl
        mc4 := rfl
        mc6 := rfl }

theorem Gone.mem_iff {q : Nat} (h : Gone s p t) (hs : IoInv s) :
    q ∈ t.ep_list ↔ q ≠ p ∧ q ∈ s.ep_list := by
  rw [h.ep_list, hs.nodup.mem_erase_iff]

theorem eraseIf_spec {cond : Prop} [Decidable cond] {l l' : List Nat} (hl : l.Nodup)
    (heq : l' = if cond then l.erase p else l) : l'.Nodup ∧ ∀ q ∈ l', q ∈ l ∧ (cond → q ≠ p) := by
  rw [heq]
  split_ifs with hcond
  · refine ⟨hl.erase p, ?_⟩
    intro q hq
    obtain ⟨hne, hmem⟩ := hl.mem_erase_iff.mp hq
    exact ⟨hmem, fun _ => hne⟩
  · exact ⟨hl, fun q hq => ⟨hq, fun h => absurd h hcond⟩⟩

theorem Gone.inv (h : Gone s p t) (hs : IoInv s) (hp : p ∈ s.ep_list) (hstays : ¬Stays s p) :
    IoInv t := by
  -- Wildcard endpoints stay.
  have hwild : ∀ q, q ∈ s.ep_list ∧ (s.mem q).has INT_WILDCARD = true →
      q ∈ t.ep_list ∧ (t.mem q).has INT_WILDCARD = true := by
    rintro q ⟨hlist, hflag⟩
    have hne : q ≠ p := by
      rintro rfl
      exact hstays (.inl (has_fixed hflag))
    rw [h.old q hne]
    exact ⟨(h.mem_iff hs).mpr ⟨hne, hlist⟩, hflag⟩
  refine ⟨?_, ?_, ?_, ?_, ?_, ?_, ?_, ?_, ?_⟩
  · rw [h.ep_list]
    exact hs.nodup.erase p
  · intro q hq
    rw [h.allocated]
    exact hs.lt q ((h.mem_iff hs).mp hq).2
  · intro q hq hfreed
    rw [h.freed] at hfreed
    obtain ⟨hne, hq⟩ := (h.mem_iff hs).mp hq
    rcases mem_cons.mp hfreed with rfl | hfreed
    · exact hne rfl
    · exact hs.live q hq hfreed
  · intro q hq
    rw [h.freed] at hq
    rw [h.allocated]
    rcases mem_cons.mp hq with rfl | hq
    · exact hs.lt _ hp
    · exact hs.freed q hq
  · intro r hr q hq
    rw [h.remote, mem_filter] at hr
    refine (h.mem_iff hs).mpr ⟨?_, hs.remote r hr.1 q hq⟩
    rintro rfl
    simp [hq] at hr
  · intro q hq
    obtain ⟨hq, hne⟩ := h.loopback q hq
    exact (h.mem_iff hs).mpr ⟨hne, hs.loopback q hq⟩
  · intro q hq
    rw [h.wild4] at hq
    exact hwild q (hs.wild4 q hq)
  · intro q hq
    rw [h.wild6] at hq
    exact hwild q (hs.wild6 q hq)
  · have hpos : 0 < s.ep_list.length := length_pos_of_mem hp
    rw [h.count, hs.count, h.ep_list, length_erase_of_mem hp]
    omega

/-- The lists for multicasts without an endpoint that does not ignore packets. -/
theorem Gone.mcInv (h : Gone s p t) (hs : IoInv s) (hmc : McInv s)
    (hign : p ∈ s.mc4_list ∨ p ∈ s.mc6_list → (s.mem p).ignore_packets = false) : McInv t := by
  obtain ⟨hnodup4, h4⟩ := eraseIf_spec hmc.nodup4 h.mc4
  obtain ⟨hnodup6, h6⟩ := eraseIf_spec hmc.nodup6 h.mc6
  refine ⟨?_, ?_, hnodup4, hnodup6⟩
  · intro q hq
    obtain ⟨hold, herased⟩ := h4 q hq
    obtain ⟨hlist, hflags⟩ := hmc.mc4 q hold
    have hne : q ≠ p := by
      rintro rfl
      exact herased ⟨hign (.inl hold), hflags⟩ rfl
    rw [h.old q hne]
    exact ⟨(h.mem_iff hs).mpr ⟨hne, hlist⟩, hflags⟩
  · intro q hq
    obtain ⟨hold, herased⟩ := h6 q hq
    obtain ⟨hlist, hflags⟩ := hmc.mc6 q hold
    have hne : q ≠ p := by
      rintro rfl
      exact herased ⟨hign (.inr hold), hflags⟩ rfl
    rw [h.old q hne]
    exact ⟨(h.mem_iff hs).mpr ⟨hne, hlist⟩, hflags⟩

/-- What is left of an endpoint other than the one that is gone. -/
theorem Gone.stays_iff {q : Nat} (h : Gone s p t) (hq : q ≠ p) : Stays t q ↔ Stays s q := by
  unfold Stays
  rw [h.old q hq, h.interphase]

theorem goneLoop_spec (hs : IoInv s) {ps : List Nat} (hps : ps.Nodup)
    (hlisted : ∀ p ∈ ps, p ∈ s.ep_list) :
    IoInv (ps.foldl goneStep s) ∧ (∀ q ∈ s.ep_list, Stays s q → q ∈ (ps.foldl goneStep s).ep_list) ∧
    (McInv s → (∀ q, q ∈ s.mc4_list ∨ q ∈ s.mc6_list →
      Stays s q ∨ (s.mem q).ignore_packets = false) → McInv (ps.foldl goneStep s)) := by
  induction ps generalizing s with
  | nil => exact ⟨hs, fun q hq _ => hq, fun hmc _ => hmc⟩
  | cons p ps ih =>
    obtain ⟨hnew, hps⟩ := nodup_cons.mp hps
    rcases goneStep_cases s p with ⟨-, heq⟩ | ⟨hstays, hgone⟩
    · rw [foldl_cons, heq]
      exact ih hs hps fun q hq => hlisted q (by simp [hq])
    · have hp : p ∈ s.ep_list := hlisted p (by simp)
      have hlisted' : ∀ q ∈ ps, q ∈ (goneStep s p).ep_list := by
        intro q hq
        refine (hgone.mem_iff hs).mpr ⟨?_, hlisted q (by simp [hq])⟩
        rintro rfl
        exact hnew hq
      obtain ⟨hinv, hstay, hmc⟩ := ih (hgone.inv hs hp hstays) hps hlisted'
      refine ⟨hinv, ?_, ?_⟩
      · intro q hq hqs
        have hne : q ≠ p := by
          rintro rfl
          exact hstays hqs
        exact hstay q ((hgone.mem_iff hs).mpr ⟨hne, hq⟩) ((hgone.stays_iff hne).mpr hqs)
      · intro hm hall
        have hign : p ∈ s.mc4_list ∨ p ∈ s.mc6_list → (s.mem p).ignore_packets = false :=
          fun hp => (hall p hp).resolve_left hstays
        have hm' := hgone.mcInv hs hm hign
        refine hmc hm' ?_
        intro q hq
        have hlist : q ∈ (goneStep s p).ep_list := by
          rcases hq with hq | hq
          · exact (hm'.mc4 q hq).1
          · exact (hm'.mc6 q hq).1
        rw [hgone.mem_iff hs] at hlist
        rw [hgone.stays_iff hlist.1, hgone.old q hlist.1]
        apply hall q
        rcases hq with hq | hq
        · exact .inl ((eraseIf_spec hm.nodup4 hgone.mc4).2 q hq).1
        · exact .inr ((eraseIf_spec hm.nodup6 hgone.mc6).2 q hq).1

/-! ### Scans -/

theorem IoInv.toggle (hs : IoInv s) :
    IoInv { s with sys_interphase := !s.sys_interphase } := { hs with }

theorem McInv.toggle (hmc : McInv s) :
    McInv { s with sys_interphase := !s.sys_interphase } := { hmc with }

theorem updateInterfaces_inv (hs : IoInv s) (c : IoCfg)
    (scan : Option (List IscInterface)) : IoInv (updateInterfaces c s scan) := by
  cases scan with
  | none => exact hs
  | some iter =>
    obtain ⟨-, hinv, -⟩ := scan_scanned (.refl _) hs.toggle c iter
    exact (goneLoop_spec hinv hinv.nodup fun _ hp => hp).1

/-- An endpoint that does not come from a scan, or that is found again, stays through phase two. -/
theorem stays_of_refound (hs : IoInv s) (hp : p ∈ s.ep_list)
    (hkeep : (s.mem p).has (INT_WILDCARD ||| INT_MCASTIF) = true ∨ Refound c s iter p) :
    Stays (iter.foldl (scanStep c) { s with sys_interphase := !s.sys_interphase }) p := by
  obtain ⟨hscan, -, -⟩ := scan_scanned (.refl _) hs.toggle c iter
  by_cases hfixed : (s.mem p).has (INT_WILDCARD ||| INT_MCASTIF) = true
  · left
    rw [(hscan.like p (hs.lt p hp)).fixed]
    exact hfixed
  · right
    have hwild : (s.mem p).has INT_WILDCARD = false := by
      rw [← not_eq_true]
      exact fun hwild => hfixed (has_fixed hwild)
    rw [scan_refound hs hp hwild (hkeep.resolve_left hfixed), hscan.interphase]

theorem updateInterfaces_keeps (hs : IoInv s) (hp : p ∈ s.ep_list)
    (hkeep : (s.mem p).has (INT_WILDCARD ||| INT_MCASTIF) = true ∨ Refound c s iter p) :
    p ∈ (updateInterfaces c s (some iter)).ep_list := by
  obtain ⟨hscan, hinv, -⟩ := scan_scanned (.refl _) hs.toggle c iter
  exact (goneLoop_spec hinv hinv.nodup fun _ hq => hq).2.1 p (hscan.kept p hp)
    (stays_of_refound hs hp hkeep)

/-- A scan keeps the lists for multicasts in order, if the endpoints on them
    that ignore packets are found again. -/
theorem updateInterfaces_mc (hs : IoInv s) (hmc : McInv s)
    (hsafe : ∀ p ∈ s.mc4_list ++ s.mc6_list,
      (s.mem p).ignore_packets = false ∨ Refound c s iter p) :
    McInv (updateInterfaces c s (some iter)) := by
  obtain ⟨hscan, hinv, hmcInv⟩ := scan_scanned (.refl _) hs.toggle c iter
  refine (goneLoop_spec hinv hinv.nodup fun _ hq => hq).2.2 (hmcInv hmc.toggle) ?_
  intro q hq
  -- It was on the list before, or it is new.
  have hcases : (q ∈ s.mc4_list ++ s.mc6_list ∧ q ∈ s.ep_list) ∨ s.allocated ≤ q := by
    rcases hq with hq | hq
    · exact (hscan.mc4 q hq).imp_left fun h => ⟨mem_append_left _ h, (hmc.mc4 q h).1⟩
    · exact (hscan.mc6 q hq).imp_left fun h => ⟨mem_append_right _ h, (hmc.mc6 q h).1⟩
  rcases hcases with ⟨hold, hlist⟩ | hnew
  · rcases hsafe q hold with hign | href
    · rcases hscan.untouched q (hs.lt q hlist) with hmark | ⟨-, hsame⟩
      · exact .inl (.inr (hmark.trans hscan.interphase.symm))
      · exact .inr (hsame.trans hign)
    · exact .inl (stays_of_refound hs hlist (.inr href))
  · have hmem := (hmcInv hmc.toggle)
    have hlist : q ∈ (iter.foldl (scanStep c)
        { s with sys_interphase := !s.sys_interphase }).ep_list := by
      rcases hq with hq | hq
      · exact (hmem.mc4 q hq).1
      · exact (hmem.mc6 q hq).1
    rcases hscan.added q hlist with hold | hmark
    · exact absurd (hs.lt q hold) (Nat.not_lt_of_le hnew)
    · exact .inl (.inr (hmark.trans hscan.interphase.symm))

end NtpSuite
