import NtpSuite.Core.Intake
import NtpSuite.Theory.EndpointList

/-!
# Endpoints of Received Packets

A packet that has been received refers to the endpoint it was read on, and so
does the reply. The endpoint should still be allocated when the packet is
processed.

It need not be. When a scan removes an endpoint, nothing is done about the
buffers that refer to it: the ones that are waiting, the one that the main loop
has taken before it ran the timer, and the one whose request asked for the
scan. `io_closeclock`, which removes a descriptor in the same way, purges the
buffers of that descriptor.

`RxSafe` excludes that: whenever there is a scan, it finds the endpoints again
that buffers refer to.

## Main definitions

* `RxEvent.scans`: The scan that a step makes.
* `RxSafe`: It finds the endpoints again that buffers refer to.
* `RxInv`: Buffers refer to endpoints that are on `ep_list`.

## Theorems

* `findinterface_mem`: An endpoint that is looked for is on `ep_list`.
* `receiveBuf_inv`: What is used while a buffer is processed is allocated.
* `rxStep_inv`: Every step that is safe keeps the invariant.
* `received_endpoints_allocated`: So every endpoint that is used is allocated.
-/

namespace NtpSuite

open List Option

/-! ### Endpoints that are looked for -/

variable {s : IoSys} {addr : SockAddr} {p : Nat}

theorem findAddrInList_mem (hs : IoInv s) (hp : findAddrInList s addr = some p) :
    p ∈ s.ep_list := by
  obtain ⟨r, hr, hrp⟩ := bind_eq_some_iff.mp hp
  exact hs.remote r (mem_of_find?_eq_some hr) p hrp

theorem findclosestinterface_mem {flags : BitVec 32}
    (hp : findclosestinterface s addr flags = some p) : p ∈ s.ep_list := by
  -- The winner so far is one of those that have been looked at.
  refine List.foldlRecOn (motive := fun w : Option Nat => ∀ q, w = some q → q ∈ s.ep_list)
    s.ep_list _ (by simp) ?_ p hp
  intro w hw q hq r hr
  split_ifs at hr with hskip
  · exact hw r hr
  · cases w with
    | none =>
      rw [← some.inj hr]
      exact hq
    | some v =>
      simp only at hr
      split_ifs at hr
      · rw [← some.inj hr]
        exact hq
      · exact hw r hr

theorem findlocalinterface_mem (hs : IoInv s) {saddr : Option SockAddr} {flags : BitVec 32}
    (hp : findlocalinterface s saddr flags = some p) : p ∈ s.ep_list := by
  cases saddr with
  | none => cases hp
  | some saddr =>
    have hiface := (filter_eq_some_iff.mp hp).1
    cases hget : getinterface s saddr flags with
    | none =>
      rw [hget] at hiface
      exact findclosestinterface_mem hiface
    | some q =>
      rw [hget] at hiface
      simp only at hiface
      split_ifs at hiface
      · exact findclosestinterface_mem hiface
      · rw [← some.inj hiface]
        exact findAddrInList_mem hs (filter_eq_some_iff.mp hget).1

theorem findinterface_mem (hs : IoInv s) {saddr : Option SockAddr}
    (hp : findinterface s addr saddr = some p) : p ∈ s.ep_list := by
  rcases or_eq_some_iff.mp hp with hfound | ⟨-, hwild⟩
  · exact findlocalinterface_mem hs hfound
  · split_ifs at hwild
    · exact (hs.wild4 p hwild).1
    · exact (hs.wild6 p hwild).1

/-! ### Processing a buffer -/

/-- Everything that was used was allocated. -/
def AllAllocated (s : RxSys) : Prop := ∀ u ∈ s.uses, u.2 = true

theorem isAllocated_of_mem (hs : IoInv s) (hp : p ∈ s.ep_list) : s.isAllocated p = true := by
  unfold IoSys.isAllocated
  simp [hs.lt p hp, hs.live p hp]

theorem AllAllocated.use {s : RxSys} (h : AllAllocated s) (hs : IoInv s.io)
    (hp : p ∈ s.io.ep_list) : AllAllocated (s.use p) := by
  intro u hu
  rcases mem_append.mp hu with hu | hu
  · exact h u hu
  · rw [mem_singleton.mp hu]
    exact isAllocated_of_mem hs hp

/-- A packet is sent to an address that is not multicast. -/
theorem AllAllocated.send {s : RxSys} (h : AllAllocated s) (hs : IoInv s.io) {dest : SockAddr}
    (hdest : ¬dest.isMcast = true) {ep : Option Nat} (hep : ∀ p, ep = some p → p ∈ s.io.ep_list) :
    AllAllocated (s.send dest ep) := by
  unfold RxSys.send sendpkt
  rw [if_neg hdest]
  cases ep with
  | none => exact h
  | some p => exact h.use hs (hep p rfl)

@[simp] theorem use_io (s : RxSys) (p : Nat) : (s.use p).io = s.io := rfl

theorem useAll_same (s : RxSys) (ps : List Nat) : (ps.foldl RxSys.use s).io = s.io ∧
    (ps.foldl RxSys.use s).full = s.full := by
  induction ps generalizing s with
  | nil => exact ⟨rfl, rfl⟩
  | cons p ps ih => exact ih (s.use p)

@[simp] theorem send_io (s : RxSys) (dest : SockAddr) (ep : Option Nat) :
    (s.send dest ep).io = s.io := (useAll_same s _).1

@[simp] theorem send_full (s : RxSys) (dest : SockAddr) (ep : Option Nat) :
    (s.send dest ep).full = s.full := (useAll_same s _).2

/-- The scan that a step makes. -/
def RxEvent.scans (c : IoCfg) (s : RxSys) : RxEvent → Option (List IscInterface)
  | .timer scan => if c.disable_dynamic_updates then none else scan
  | .receiver (.ifReload scan) =>
    if c.disable_dynamic_updates || !s.rbuf.any (!·.recv_srcadr.isMcast) then none else scan
  | _ => none

/-- An endpoint that does not come from a scan, or that is found again. -/
def Lasts (c : IoCfg) (s : IoSys) (iter : List IscInterface) (p : Nat) : Prop :=
  (s.mem p).has (INT_WILDCARD ||| INT_MCASTIF) = true ∨ Refound c s iter p

instance (c : IoCfg) (s : IoSys) (iter : List IscInterface) (p : Nat) :
    Decidable (Lasts c s iter p) := inferInstanceAs (Decidable (_ ∨ _))

/-- A scan finds the endpoints again that buffers refer to: the ones that are
    waiting and the one that the main loop has taken. -/
def RxSafe (c : IoCfg) (s : RxSys) (e : RxEvent) : Prop :=
  ∀ iter ∈ e.scans c s, ∀ b ∈ s.full ++ s.rbuf.toList, Lasts c s.io iter b.dstadr

instance (c : IoCfg) (s : RxSys) (e : RxEvent) : Decidable (RxSafe c s e) := by
  unfold RxSafe
  infer_instance

/-- Buffers refer to endpoints that are on `ep_list`, and everything that was used was allocated. -/
structure RxInv (s : RxSys) : Prop where
  io : IoInv s.io
  bufs : ∀ b ∈ s.full ++ s.rbuf.toList, b.dstadr ∈ s.io.ep_list
  uses : AllAllocated s

theorem interfaceUpdate_bufs {c : IoCfg} {s : RxSys} (h : RxInv s)
    (scan : Option (List IscInterface))
    (hsafe : ∀ iter ∈ (if c.disable_dynamic_updates then none else scan),
      ∀ b ∈ s.full ++ s.rbuf.toList, Lasts c s.io iter b.dstadr) :
    IoInv (interfaceUpdate c s.io scan) ∧
    ∀ b ∈ s.full ++ s.rbuf.toList, b.dstadr ∈ (interfaceUpdate c s.io scan).ep_list := by
  unfold interfaceUpdate
  split_ifs at hsafe ⊢
  · exact ⟨h.io, h.bufs⟩
  · refine ⟨updateInterfaces_inv h.io c scan, ?_⟩
    intro b hb
    cases scan with
    | none => exact h.bufs b hb
    | some iter => exact updateInterfaces_keeps h.io (h.bufs b hb) (hsafe iter rfl b hb)

/-- What is used while a buffer is processed is allocated, and the other buffers
    refer to endpoints that are on `ep_list` afterwards. -/
theorem receiveBuf_inv {c : IoCfg} {s : RxSys} (h : RxInv s) {b : RecvPkt} (hb : s.rbuf = some b)
    {r : Reply} (hsafe : RxSafe c s (.receiver r)) :
    IoInv (receiveBuf c s b r).io ∧ AllAllocated (receiveBuf c s b r) ∧
    ∀ q ∈ (receiveBuf c s b r).full, q.dstadr ∈ (receiveBuf c s b r).io.ep_list := by
  have hdst : b.dstadr ∈ s.io.ep_list := h.bufs b (by simp [hb])
  have hfull : ∀ q ∈ s.full, q.dstadr ∈ s.io.ep_list :=
    fun q hq => h.bufs q (mem_append_left _ hq)
  have huse : AllAllocated (s.use b.dstadr) := h.uses.use h.io hdst
  unfold receiveBuf
  split_ifs with hmcast
  · exact ⟨h.io, huse, hfull⟩
  · cases r with
    | nothing => exact ⟨h.io, huse, hfull⟩
    | fastXmit saddr =>
      simp only [send_io, send_full, use_io]
      refine ⟨h.io, huse.send h.io hmcast ?_, hfull⟩
      intro p hp
      unfold replyFrom at hp
      split_ifs at hp
      · exact findinterface_mem h.io hp
      · rw [← some.inj hp]
        exact hdst
    | respond =>
      simp only [send_io, send_full, use_io]
      refine ⟨h.io, huse.send h.io hmcast ?_, hfull⟩
      intro p hp
      rw [← some.inj hp]
      exact hdst
    | ifReload scan =>
      -- The scan takes place between the two uses.
      have hscans : (RxEvent.receiver (.ifReload scan)).scans c s =
          if c.disable_dynamic_updates then none else scan := by
        simp [RxEvent.scans, hb, hmcast]
      unfold RxSafe at hsafe
      rw [hscans] at hsafe
      obtain ⟨hinv, hbuf⟩ := interfaceUpdate_bufs h scan hsafe
      simp only [send_io, send_full, use_io]
      refine ⟨hinv, AllAllocated.send (s := { s.use b.dstadr with
        io := interfaceUpdate c s.io scan }) huse hinv hmcast ?_,
        fun q hq => hbuf q (mem_append_left _ hq)⟩
      intro p hp
      rw [← some.inj hp]
      exact hbuf b (by simp [hb])

theorem rxStep_inv (c : IoCfg) (s : RxSys) (e : RxEvent) (h : RxInv s) (hsafe : RxSafe c s e) :
    RxInv (rxStep c s e) := by
  cases e with
  | read itf recv_srcadr =>
    simp only [rxStep, readNetworkPacket]
    split_ifs with hread
    · refine ⟨h.io, ?_, h.uses⟩
      intro b hb
      simp only [append_assoc, mem_append, mem_singleton] at hb
      rcases hb with hb | rfl | hb
      · exact h.bufs b (mem_append_left _ hb)
      · exact hread.1
      · exact h.bufs b (mem_append_right _ hb)
    · exact h
  | timer scan =>
    obtain ⟨hinv, hbuf⟩ := interfaceUpdate_bufs h scan hsafe
    exact ⟨hinv, hbuf, h.uses⟩
  | getFull =>
    have hbufs := h.bufs
    simp only [rxStep]
    cases hr : s.rbuf with
    | some b => exact h
    | none =>
      cases hf : s.full with
      | nil => exact h
      | cons b rest =>
        refine ⟨h.io, ?_, h.uses⟩
        intro q hq
        apply hbufs
        rw [hf]
        simp only [toList_some, mem_append, mem_singleton] at hq
        rcases hq with hq | rfl
        · simp [hq]
        · simp
  | receiver r =>
    simp only [rxStep]
    cases hr : s.rbuf with
    | none => exact h
    | some b =>
      obtain ⟨hinv, huses, hfull⟩ := receiveBuf_inv h hr hsafe
      exact ⟨hinv, by simpa using hfull, huses⟩
  | addNicRule rule => exact ⟨ioStep_inv c s.io (.addNicRule rule) h.io, h.bufs, h.uses⟩
  | multicastAdd addr opens joins joining =>
    have hkeeps := ioMulticastAdd_keeps h.io c addr opens joins joining
    exact ⟨hkeeps.inv, fun b hb => hkeeps.kept _ (h.bufs b hb), h.uses⟩

theorem rxStart_inv (c : IoCfg) (rules : List NicRule) (scan : Option (List IscInterface)) :
    RxInv (rxStart c rules scan) where
  io := updateInterfaces_inv (ioStart_inv c rules).1 c scan
  bufs := by simp [rxStart]
  uses := by simp [rxStart, AllAllocated]

/-- As long as every scan finds the endpoints again that buffers refer to, every
    endpoint that is used while a buffer is processed is allocated. -/
theorem received_endpoints_allocated (c : IoCfg) (rules : List NicRule)
    (scan : Option (List IscInterface)) (es : List RxEvent)
    (hes : Run.Meets (rxStep c) (RxSafe c) (rxStart c rules scan) es) :
    ∀ u ∈ (Run.exec (rxStep c) (rxStart c rules scan) es).uses, u.2 = true :=
  (Run.exec_invariant (rxStep_inv c) _ es (rxStart_inv c rules scan) hes).uses

/-- A client. -/
def clientAddr : SockAddr := { addr := 0xc0a80009 }

/-- A packet is read, the timer finds its endpoint again between taking it and processing it, and
    another one asks for a scan; in between an endpoint without packets goes away. -/
def servedRun : List RxEvent :=
  [.read 2 clientAddr, .timer (some [lanInterface]), .getFull, .timer (some [lanInterface]),
    .receiver (.fastXmit none), .read 2 clientAddr, .getFull,
    .receiver (.ifReload (some [lanInterface])), .timer (some [])]

theorem received_endpoints_allocated_servedRun :
    let s := Run.exec (rxStep {}) (rxStart {} [] (some [lanInterface,
      { name := "lo", address := 0x7f000001, loopback := true, multicast := false }])) servedRun
    s.uses.length = 4 ∧ ∀ u ∈ s.uses, u.2 = true := by
  exact ⟨by decide, received_endpoints_allocated {} [] _ servedRun (by decide)⟩

/-- The address goes away while its packet is waiting, while the main loop has
    taken it, and by the request of the packet itself. -/
def waitingRun : List RxEvent :=
  [.read 2 clientAddr, .timer (some []), .getFull, .receiver (.fastXmit none)]

def takenRun : List RxEvent :=
  [.read 2 clientAddr, .getFull, .timer (some []), .receiver (.fastXmit none)]

def reloadRun : List RxEvent := [.read 2 clientAddr, .getFull, .receiver (.ifReload (some []))]

/-- In each case its endpoint is used after it has been freed. -/
theorem freed_endpoint_used :
    (Run.exec (rxStep {}) (rxStart {} [] (some [lanInterface])) waitingRun).uses =
      [(2, false), (2, false)] ∧
    (Run.exec (rxStep {}) (rxStart {} [] (some [lanInterface])) takenRun).uses =
      [(2, false), (2, false)] ∧
    (Run.exec (rxStep {}) (rxStart {} [] (some [lanInterface])) reloadRun).uses =
      [(2, true), (2, false)] := by
  decide

end NtpSuite
