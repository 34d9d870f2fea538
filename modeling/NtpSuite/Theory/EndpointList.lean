import NtpSuite.Lib.Run
import NtpSuite.Theory.EndpointScan

/-!
# Lists of Endpoints

Every list should hold only endpoints that are on `ep_list`, and `ep_list`
only ones that have not been freed.

For most of the lists that is so, whatever the scans find. For `mc4_list` and
`mc6_list` it is not. An endpoint is put there when it is created, if it does
not ignore packets; and it is taken off when it is removed, if it does not
ignore packets. In between a scan may find that the rules have changed, or
that another interface with the same address is to be treated differently, and
switch it to ignoring packets. When its address goes away, it is freed and
stays on the list.

`McSafe` excludes that: of the endpoints on these lists, those that ignore
packets are found again by every scan.

## Main definitions

* `KeepsLists`: The invariants are kept, and the endpoints stay.
* `McSafe`: No endpoint that ignores packets is lost from the lists for
  multicasts.

## Theorems

* `ioMulticastAdd_keeps`: Joining a group keeps the invariants.
* `ioStart_inv`: They hold at the start.
* `ioStep_inv`, `ioStep_mc`: Every step keeps them.
* `endpoint_lists_live`: The lists hold only endpoints that are allocated.
-/

namespace NtpSuite

/-! ### Groups and wildcards -/

/-- The invariants are kept, and the endpoints stay. -/
structure KeepsLists (s t : IoSys) : Prop where
  inv : IoInv t
  mc : McInv s → McInv t
  kept : ∀ p ∈ s.ep_list, p ∈ t.ep_list

variable {s : IoSys} (c : IoCfg) (rules : List NicRule)

theorem KeepsLists.refl (hs : IoInv s) : KeepsLists s s := ⟨hs, id, fun _ hp => hp⟩

theorem KeepsLists.trans {t u : IoSys} (h : KeepsLists s t) (h' : KeepsLists t u) :
    KeepsLists s u :=
  ⟨h'.inv, fun hmc => h'.mc (h.mc hmc), fun p hp => h'.kept p (h.kept p hp)⟩

theorem Grown.keeps {t : IoSys} {addr : SockAddr} (h : Grown s addr t) (hs : IoInv s) :
    KeepsLists s t := by
  exact ⟨h.inv hs, h.mcInv hs, fun p hp => (h.kept hs hp).1⟩

theorem addAddrToList_keeps (hs : IoInv s) (c : IoCfg) (addr : SockAddr) (ep : Option Nat)
    (hep : ∀ p, ep = some p → p ∈ s.ep_list) : KeepsLists s (addAddrToList c s addr ep) := by
  unfold addAddrToList
  split_ifs
  · exact .refl hs
  · refine ⟨{ hs with remote := ?_ }, fun hmc => { hmc with }, fun _ hp => hp⟩
    intro r hr p hp
    rcases List.mem_cons.mp hr with rfl | hr
    · exact hep p hp
    · exact hs.remote r hr p hp

theorem socketMulticastEnable_keeps (hs : IoInv s) (c : IoCfg) (p : Nat) (maddr : SockAddr)
    (joins : Bool) : KeepsLists s (socketMulticastEnable c s p maddr joins) := by
  unfold socketMulticastEnable
  split_ifs
  · exact ⟨hs.modify (like_mcastopen _), fun hmc => hmc.modify (like_mcastopen _), fun _ hp => hp⟩
  · exact .refl hs

theorem socketMulticastEnable_remote (s : IoSys) (p : Nat) (maddr : SockAddr) (joins : Bool) :
    (socketMulticastEnable c s p maddr joins).remoteaddr_list = s.remoteaddr_list := by
  unfold socketMulticastEnable
  split_ifs <;> rfl

theorem IoInv.wild (hs : IoInv s) {addr : SockAddr} {p : Nat} (hp : s.wild addr = some p) :
    p ∈ s.ep_list := by
  unfold IoSys.wild at hp
  split at hp
  · exact (hs.wild4 p hp).1
  · exact (hs.wild6 p hp).1
  · cases hp

theorem joinNewSocket_keeps (hs : IoInv s) (c : IoCfg) (addr : SockAddr) (opens joins : Bool) :
    KeepsLists s (joinNewSocket c s addr opens joins) := by
  unfold joinNewSocket
  simp only
  generalize he : ({ sin := { addr with port := 123 }
                     mask := { af := addr.af, addr := 2 ^ addr.af.width - 1 }
                     phase := s.sys_interphase, fd := opens } : Interface) = e
  have hphase : e.phase = s.sys_interphase := by rw [← he]
  split_ifs
  · -- The socket is new.
    have hnew := newInterface_growing s addr hphase
    have hlinked := (hnew.modify (f := fun e =>
      { e with ignore_packets := false, flags := e.flags ||| INT_MCASTIF, name := "multicast" })
      fun _ => rfl).addInterface c
    refine ((hlinked.multicastEnable c addr joins).addAddr ?_ c).keeps hs
    rw [socketMulticastEnable_remote, addInterface_remote]
    rfl
  · have hfreed : KeepsLists s (deleteInterface (newInterface s e).1 s.allocated) :=
      ⟨discard_inv hs e, fun hmc => discard_mcInv hs hmc e, fun _ hp => hp⟩
    split
    · exact hfreed
    · rename_i p hp
      have henable := socketMulticastEnable_keeps hfreed.inv c p addr joins
      refine (hfreed.trans henable).trans (addAddrToList_keeps henable.inv c addr (some p) ?_)
      intro q hq
      rw [← Option.some.inj hq]
      exact henable.kept p (hfreed.inv.wild hp)

theorem enableLoop_keeps (hs : IoInv s) (c : IoCfg) (addr : SockAddr) (joining eps : List Nat) :
    KeepsLists s (eps.foldl (fun s p => socketMulticastEnable c s p addr (p ∈ joining)) s) := by
  induction eps generalizing s with
  | nil => exact .refl hs
  | cons p eps ih =>
    have hfirst := socketMulticastEnable_keeps hs c p addr (p ∈ joining)
    exact hfirst.trans (ih hfirst.inv)

theorem joinEachSocket_keeps (hs : IoInv s) (c : IoCfg) (addr : SockAddr) (joining : List Nat) :
    KeepsLists s (joinEachSocket c s addr joining) := by
  unfold joinEachSocket
  generalize heps : (s.ep_list.filter fun p => !(s.mem p).ignore_packets &&
    (s.mem p).sin.af = addr.af && (s.mem p).has INT_MULTICAST &&
    !(s.mem p).has (INT_LOOPBACK ||| INT_WILDCARD)) = eps
  have hloop := enableLoop_keeps hs c addr joining eps
  refine hloop.trans (addAddrToList_keeps hloop.inv c addr _ ?_)
  intro p hp
  apply hloop.kept
  rcases Option.or_eq_some_iff.mp hp with hlast | ⟨-, hwild⟩
  · rw [← heps] at hlast
    exact List.mem_of_mem_filter (List.mem_of_getLast? hlast)
  · split_ifs at hwild
    · exact (hs.wild4 p hwild).1
    · exact (hs.wild6 p hwild).1

theorem ioMulticastAdd_keeps (hs : IoInv s) (c : IoCfg) (addr : SockAddr) (opens joins : Bool)
    (joining : List Nat) : KeepsLists s (ioMulticastAdd c s addr opens joins joining) := by
  unfold ioMulticastAdd
  by_cases hmcast : addr.isMcast = true
  · rw [if_pos hmcast]
    cases findFlaggedAddr s.mem addr INT_MCASTOPEN s.remoteaddr_list with
    | error => exact ⟨{ hs with }, fun hmc => { hmc with }, fun _ hp => hp⟩
    | ok found =>
      cases found with
      | some p => exact .refl hs
      | none =>
        split_ifs
        · exact joinEachSocket_keeps hs c addr joining
        · exact joinNewSocket_keeps hs c addr opens joins
  · rw [if_neg hmcast]
    exact .refl hs

/-- An endpoint for a wildcard address keeps the invariants. -/
theorem createWildcard_inv (hs : IoInv s) (hmc : McInv s) (c : IoCfg) (af : AF) (works : Bool)
    (name : String) (flags : BitVec 32) (hflags : INT_WILDCARD &&& flags ≠ 0) :
    IoInv (createWildcard c s af works name flags).1 ∧
    McInv (createWildcard c s af works name flags).1 ∧
    ∀ p, (createWildcard c s af works name flags).2 = some p →
      p ∈ (createWildcard c s af works name flags).1.ep_list ∧
      ((createWildcard c s af works name flags).1.mem p).has INT_WILDCARD = true := by
  unfold createWildcard
  simp only
  split_ifs with hused
  · generalize he : ({ name := name, sin := { af := af, addr := 0 }
                       mask := { af := af, addr := 2 ^ af.width - 1 }, flags := flags
                       ignore_packets :=
                         interfaceAction c s.nic_rule_list none { af := af, addr := 0 } 0 = .drop
                       phase := s.sys_interphase, fd := true } : Interface) = e
    have hphase : e.phase = s.sys_interphase := by rw [← he]
    have hwild : e.has INT_WILDCARD = true := by simpa [← he, Interface.has] using hflags
    have hgrown :=
      ((newInterface_growing s { af := af, addr := 0 } hphase).addAddr rfl c).addInterface c
    refine ⟨hgrown.inv hs, hgrown.mcInv hs hmc, ?_⟩
    intro p hp
    rw [← Option.some.inj hp]
    exact ⟨by simp [hgrown.ep_list], by simpa using hwild⟩
  · exact ⟨hs, hmc, nofun⟩

theorem ioInv_start : IoInv { nic_rule_list := rules } where
  nodup := List.nodup_nil
  lt := by simp
  live := by simp
  freed := by simp
  remote := by simp
  loopback := by simp
  wild4 := by simp
  wild6 := by simp
  count := rfl

theorem mcInv_start : McInv { nic_rule_list := rules } where
  mc4 := by simp
  mc6 := by simp
  nodup4 := List.nodup_nil
  nodup6 := List.nodup_nil

theorem ioStart_inv : IoInv (ioStart c rules) ∧ McInv (ioStart c rules) := by
  obtain ⟨hinv4, hmc4, hwild4⟩ := createWildcard_inv (ioInv_start rules) (mcInv_start rules) c
    .inet c.ipv4_works "v4wildcard" (INT_BROADCAST ||| INT_UP ||| INT_WILDCARD) (by decide)
  unfold ioStart createWildcards
  generalize createWildcard c { nic_rule_list := rules } .inet c.ipv4_works "v4wildcard"
    (INT_BROADCAST ||| INT_UP ||| INT_WILDCARD) = r at *
  have hs : IoInv { r.1 with wildipv4 := r.2 } := { hinv4 with wild4 := hwild4 }
  have hmc : McInv { r.1 with wildipv4 := r.2 } := { hmc4 with }
  obtain ⟨hinv6, hmc6, hwild6⟩ := createWildcard_inv hs hmc c .inet6 c.ipv6_works "v6wildcard"
    (INT_UP ||| INT_WILDCARD) (by decide)
  exact ⟨{ hinv6 with wild6 := hwild6 }, { hmc6 with }⟩

/-! ### Runs -/

/-- Of the endpoints on the lists for multicasts, the ones that ignore packets
    are found again by the scan. -/
def McSafe (c : IoCfg) (s : IoSys) : IoEvent → Prop
  | .updateInterfaces (some iter) => ∀ p ∈ s.mc4_list ++ s.mc6_list,
    (s.mem p).ignore_packets = false ∨ Refound c s iter p
  | _ => True

instance (c : IoCfg) (s : IoSys) (e : IoEvent) : Decidable (McSafe c s e) := by
  unfold McSafe
  split <;> infer_instance

theorem ioStep_inv (s : IoSys) (e : IoEvent) (hs : IoInv s) : IoInv (ioStep c s e) := by
  cases e with
  | addNicRule rule => exact { hs with }
  | updateInterfaces scan => exact updateInterfaces_inv hs c scan
  | multicastAdd addr opens joins joining =>
    exact (ioMulticastAdd_keeps hs c addr opens joins joining).inv

theorem ioStep_mc (s : IoSys) (e : IoEvent) (h : IoInv s ∧ McInv s) (hsafe : McSafe c s e) :
    IoInv (ioStep c s e) ∧ McInv (ioStep c s e) := by
  obtain ⟨hs, hmc⟩ := h
  refine ⟨ioStep_inv c s e hs, ?_⟩
  cases e with
  | addNicRule rule => exact { hmc with }
  | updateInterfaces scan =>
    cases scan with
    | none => exact hmc
    | some iter => exact updateInterfaces_mc hs hmc hsafe
  | multicastAdd addr opens joins joining =>
    exact (ioMulticastAdd_keeps hs c addr opens joins joining).mc hmc

/-- As long as no endpoint that ignores packets is lost from the lists for
    multicasts, all lists hold only endpoints that are on `ep_list`, which are
    allocated, and a multicast is sent from those. -/
theorem endpoint_lists_live (c : IoCfg) (rules : List NicRule) (es : List IoEvent)
    (hes : Run.Meets (ioStep c) (McSafe c) (ioStart c rules) es) :
    let s := Run.exec (ioStep c) (ioStart c rules) es
    (∀ p ∈ s.mc4_list, p ∈ s.ep_list) ∧ (∀ p ∈ s.mc6_list, p ∈ s.ep_list) ∧
    (∀ r ∈ s.remoteaddr_list, ∀ p, r.2 = some p → p ∈ s.ep_list) ∧
    (∀ p, s.loopback_interface = some p → p ∈ s.ep_list) ∧
    s.ninterfaces = s.ep_list.length ∧
    (∀ p ∈ s.ep_list, p < s.allocated ∧ p ∉ s.freed) ∧
    ∀ dest ep, dest.isMcast = true → ∀ p ∈ sendpkt s dest ep, p ∉ s.freed := by
  intro s
  obtain ⟨hs, hmc⟩ : IoInv s ∧ McInv s :=
    Run.exec_invariant (ioStep_mc c) _ es (ioStart_inv c rules) hes
  refine ⟨fun p hp => (hmc.mc4 p hp).1, fun p hp => (hmc.mc6 p hp).1, hs.remote, hs.loopback,
    hs.count, fun p hp => ⟨hs.lt p hp, hs.live p hp⟩, ?_⟩
  intro dest ep hdest p hp
  unfold sendpkt at hp
  split_ifs at hp
  · exact hs.live p (hmc.mc4 p hp).1
  · exact hs.live p (hmc.mc6 p hp).1

/-- An interface with an address that is used for multicasts. -/
def lanInterface : IscInterface := { name := "eth0", address := 0xc0a80002, netmask := 0xffffff00 }

/-- It comes and goes while the rules change in between, and a group is joined. -/
def lanRun : List IoEvent :=
  [.updateInterfaces (some [lanInterface,
      { name := "lo", address := 0x7f000001, loopback := true, multicast := false }]),
    .addNicRule ⟨.all, .drop⟩,
    .updateInterfaces (some [lanInterface]),
    .multicastAdd { addr := 0xe0000101 } true true [],
    .addNicRule ⟨.all, .listen⟩,
    .updateInterfaces (some [lanInterface]),
    .updateInterfaces (some [])]

theorem endpoint_lists_live_lanRun :
    let s := Run.exec (ioStep {}) (ioStart {} []) lanRun
    s.ep_list = [0, 1, 4] ∧ s.freed = [2, 3] ∧ (∀ p ∈ s.mc4_list, p ∈ s.ep_list) ∧
    ∀ dest ep, dest.isMcast = true → ∀ p ∈ sendpkt s dest ep, p ∉ s.freed := by
  have hlive := endpoint_lists_live {} [] lanRun (by decide)
  exact ⟨by decide, by decide, hlive.1, hlive.2.2.2.2.2.2⟩

/-- The interface is found by a scan, is to be ignored from the next one on,
    and is gone at the third. -/
def droppedRun : List IoEvent :=
  [.updateInterfaces (some [lanInterface]), .addNicRule ⟨.all, .drop⟩,
    .updateInterfaces (some [lanInterface]), .updateInterfaces (some [])]

/-- Two interfaces share the address, and the rules are for one of them. -/
def sharedRun : List IoEvent :=
  [.updateInterfaces (some [lanInterface]),
    .updateInterfaces (some [lanInterface, { lanInterface with name := "eth1" }]),
    .updateInterfaces (some [])]

/-- Its endpoint is freed and still on `mc4_list`, and a multicast is sent from
    there; with the shared address as well. -/
theorem freed_endpoint_multicasts :
    (let s := Run.exec (ioStep {}) (ioStart {} []) droppedRun
    s.mc4_list = [2] ∧ 2 ∉ s.ep_list ∧ 2 ∈ s.freed ∧
    sendpkt s { addr := 0xe0000101 } none = [2]) ∧
    (let s := Run.exec (ioStep {}) (ioStart {} [⟨.ifname "eth1", .drop⟩, ⟨.all, .listen⟩]) sharedRun
    s.mc4_list = [2] ∧ 2 ∉ s.ep_list ∧ 2 ∈ s.freed) := by
  decide +kernel

end NtpSuite
