import NtpSuite.Core.Assoc
import NtpSuite.Core.Restrict
import NtpSuite.Lib.Chained

/-!
# The Monitor

The table of `ntp_monitor.c` in which the daemon remembers who sent it
packets, and the rate control for inbound packets that goes with it.

Every entry is on two lists, the MRU list with the latest arrival first and a
chain of the hash table; those not in use are on the free list. Entries are
known by their addresses, numbered in the order of allocation, and the three
lists are lists of such numbers. Freed entries are cleared.

The counters `mru_entries` and `mru_alloc` count structures in memory and are
numbers without a bound. The arithmetic of the rate control is that of an
`int` of 32 bits, and wraps around where the source has undefined behaviour.
The hash of an address is that of a host with little-endian family words.

A packet can be refused a new entry at random. The outcome of that comparison
is a parameter of the packet.

## Main definitions

* `sockHash`: The hash of an address.
* `Mon.MonEntry`: An entry.
* `Mon.Knobs`: The settings.
* `Mon.MonSys`: The table.
* `Mon.headway`: The rate control.
* `Mon.monStart`, `Mon.monStop`, `Mon.monClearinterface`, `Mon.ntpMonitor`: The
  functions other modules call.
* `Mon.monStep`: What can happen next.
-/

namespace NtpSuite

def RES_KOD : BitVec 16 := 0x0400

def MDF_UCAST : BitVec 8 := 0x01
def MDF_MCAST : BitVec 8 := 0x02
def MDF_BCAST : BitVec 8 := 0x04

/-- The octets of the family word. -/
def AF.octets : AF → List Nat
  | .unspec => [0, 0]
  | .inet => [2, 0]
  | .inet6 => [10, 0]

/-- The octets of the address, in network order. -/
def SockAddr.octets (addr : SockAddr) : List Nat :=
  let octet (len j : Nat) := addr.addr / 256 ^ (len - 1 - j) % 256
  match addr.af with
  | .unspec => []
  | .inet => (List.range 4).map (octet 4)
  | .inet6 => (List.range 16).map (octet 16)

/-- `sock_hash`: of the family and the address. -/
def sockHash (addr : SockAddr) : Nat :=
  (addr.af.octets ++ addr.octets).foldl (fun hashVal b => (37 * hashVal + b) % 2 ^ 32) 0 % 2 ^ 16

/-- An `int` of 32 bits. -/
def int32 (z : Int) : Int := z.bmod (2 ^ 32)

/-- A `u_int` less one. -/
def uintPred (n : Nat) : Nat := if n = 0 then 2 ^ 32 - 1 else n - 1

namespace Mon

/-- An entry: the endpoint it was received on, the first and the latest time,
    the counter of the rate control, the number of packets, the restrict flags,
    version and mode, how it was received, and from whom. -/
structure MonEntry where
  lcladr : Nat := 0
  first : LFp := 0
  last : LFp := 0
  leak : Int := 0
  count : BitVec 32 := 0
  flags : BitVec 16 := 0
  vn_mode : BitVec 8 := 0
  cast_flags : BitVec 8 := 0
  rmtadr : SockAddr := ⟨.unspec, 0, 0, 0⟩
deriving DecidableEq, Repr

/-- The settings of `discard` and `mru`. -/
structure Knobs where
  ntp_minpkt : BitVec 32 := 2
  ntp_minpoll : Nat := 3
  mru_mindepth : Nat := 600
  mru_maxage : BitVec 32 := 64
  mru_maxdepth : Nat := 11915
  mru_initalloc : Nat := 46
  mru_incalloc : Nat := 46
deriving DecidableEq, Repr

/-- The table. -/
structure MonSys where
  mem : Nat → MonEntry := fun _ => {}
  mon_mru_list : List Nat := []
  mon_hash : Nat → List Nat := fun _ => []
  mon_hash_bits : Nat := 0
  mon_free : List Nat := []
  mru_alloc : Nat := 0
  mru_entries : Nat := 0
  mru_peakentries : Nat := 0
  mon_mem_increments : Nat := 0
  mon_enabled : BitVec 32 := MON_OFF
  allocated : Nat := 0
  aborted : Bool := false

/-- `MON_HASH` for a table of that size. -/
def monHash (mon_hash_bits : Nat) (addr : SockAddr) : Nat := sockHash addr % 2 ^ mon_hash_bits

/-- The bucket of an entry. -/
def MonSys.bucket (s : MonSys) (mon : Nat) : Nat := monHash s.mon_hash_bits (s.mem mon).rmtadr

/-! ### Entries -/

/-- `remove_from_hash`. -/
def removeFromHash (s : MonSys) (mon : Nat) : MonSys :=
  { s with
    mru_entries := uintPred s.mru_entries
    mon_hash := Chained.unlink s.mon_hash (s.bucket mon) mon
    aborted := s.aborted || decide (mon ∉ s.mon_hash (s.bucket mon)) }

/-- `mon_free_entry`. -/
def monFreeEntry (s : MonSys) (m : Nat) : MonSys :=
  { s with mem := Function.update s.mem m {}, mon_free := m :: s.mon_free }

/-- `mon_reclaim_entry`. -/
def monReclaimEntry (s : MonSys) (m : Nat) : MonSys :=
  let s := removeFromHash { s with mon_mru_list := s.mon_mru_list.erase m } m
  { s with mem := Function.update s.mem m {} }

/-- `mon_getmoremem`: the last of the new entries is freed first. -/
def monGetmoremem (s : MonSys) (k : Knobs) : MonSys :=
  let entries := if s.mon_mem_increments = 0 then k.mru_initalloc else k.mru_incalloc
  let s' := ((List.range entries).map (s.allocated + ·)).reverse.foldl monFreeEntry s
  { s' with
    mru_alloc := s.mru_alloc + entries
    mon_mem_increments := s.mon_mem_increments + 1
    allocated := s.allocated + entries }

/-! ### Start and stop -/

/-- `mon_start`. The table is for an average of eight entries per bucket. -/
def monStart (s : MonSys) (k : Knobs) (mode : BitVec 32) : MonSys :=
  if mode = MON_OFF then s
  else if s.mon_enabled ≠ MON_OFF then { s with mon_enabled := s.mon_enabled ||| mode }
  else
    let s := if s.mon_mem_increments = 0 then monGetmoremem s k else s
    { s with
      mon_hash_bits := min 16 (max 4 (Nat.log2 (k.mru_maxdepth / 8 + 1)))
      mon_hash := fun _ => []
      mon_enabled := mode }

/-- `mon_stop`. -/
def monStop (s : MonSys) (mode : BitVec 32) : MonSys :=
  if s.mon_enabled = MON_OFF then s
  else if s.mon_enabled &&& mode = 0 ∨ mode = MON_OFF then s
  else
    let s := { s with mon_enabled := s.mon_enabled &&& ~~~mode }
    if s.mon_enabled ≠ MON_OFF then s
    else
      let s := s.mon_mru_list.foldl monFreeEntry s
      { s with mru_entries := 0, mon_mru_list := [], mon_hash := fun _ => [] }

/-- The loop of `mon_clearinterface` for one entry. -/
def clearEntry (lcladr : Nat) (s : MonSys) (mon : Nat) : MonSys :=
  if (s.mem mon).lcladr = lcladr then
    monFreeEntry (removeFromHash { s with mon_mru_list := s.mon_mru_list.erase mon } mon) mon
  else s

/-- `mon_clearinterface`. -/
def monClearinterface (s : MonSys) (lcladr : Nat) : MonSys :=
  s.mon_mru_list.foldl (clearEntry lcladr) s

/-! ### Packets -/

/-- A packet: who sent it and when, its first octet, the endpoint it arrived on with
    `INT_MCASTOPEN`, and whether it came in on the endpoint's socket or on its broadcast socket. -/
structure MonPacket where
  recv_srcadr : SockAddr := {}
  recv_time : LFp := 0
  li_vn_mode : BitVec 8 := 0
  dstadr : Nat := 0
  mcastopen : Bool := false
  onFd : Bool := false
  onBfd : Bool := false
deriving DecidableEq, Repr

/-- `VN_MODE` of the version and the mode of the packet. -/
def MonPacket.vnMode (p : MonPacket) : BitVec 8 := p.li_vn_mode &&& 0x3f

/-- How the packet was received. -/
def MonPacket.castFlags (p : MonPacket) : BitVec 8 :=
  if p.mcastopen ∧ p.onFd then MDF_MCAST else if p.onBfd then MDF_BCAST else MDF_UCAST

/-- Whole seconds from one time to another, rounded. -/
def interval (recv_time last : LFp) : Int :=
  int32 ((0x80000000 + (recv_time - last)) >>> 32).toNat

/-- Flags without `RES_LIMITED` and `RES_KOD`. -/
def doused (flags : BitVec 16) : BitVec 16 := ~~~(RES_LIMITED ||| RES_KOD) &&& flags

/-- The rate control: what becomes of the counter and of the flags when a packet
    comes after an interval. -/
def headway (k : Knobs) (interval leak : Int) (flags : BitVec 16) : Int × BitVec 16 :=
  let monLeak := max 0 (int32 (leak - interval))
  let head := int32 (2 ^ k.ntp_minpoll)
  let leak := int32 (monLeak + head)
  let limit := int32 (NTP_SHIFT * head)
  if k.ntp_minpkt.toInt ≤ int32 (interval + 1) ∧ leak < limit then (int32 (leak - 2), doused flags)
  else if monLeak < limit then (int32 (limit + head), flags)
  else (monLeak, ~~~RES_KOD &&& flags)

/-- The counter and the restrict mask of a source that is known. -/
def MonEntry.control (mon : MonEntry) (k : Knobs) (p : MonPacket) (flags : BitVec 16) :
    Int × BitVec 16 :=
  headway k (interval p.recv_time mon.last) mon.leak flags

/-- The entry of a source that is known, after another packet. -/
def MonEntry.again (mon : MonEntry) (k : Knobs) (p : MonPacket) (flags : BitVec 16) : MonEntry :=
  { mon with
    last := p.recv_time
    rmtadr := { mon.rmtadr with port := p.recv_srcadr.port }
    count := mon.count + 1
    vn_mode := p.vnMode
    leak := (mon.control k p flags).1
    flags := (mon.control k p flags).2 }

/-- The entry of a source that is new. -/
def MonPacket.first (p : MonPacket) (flags : BitVec 16) : MonEntry :=
  { last := p.recv_time
    first := p.recv_time
    count := 1
    flags := doused flags
    leak := 0
    rmtadr := p.recv_srcadr
    vn_mode := p.vnMode
    lcladr := p.dstadr
    cast_flags := p.castFlags }

/-- The search of a chain for the source. -/
def findMon (s : MonSys) (addr : SockAddr) : Option Nat :=
  (s.mon_hash (monHash s.mon_hash_bits addr)).find? fun mon => (s.mem mon).rmtadr.sockEq addr

/-- An entry from the free list, which is filled if need be. Without an entry
    the source writes through a null pointer. -/
def takeFree (s : MonSys) (k : Knobs) : MonSys × Nat :=
  let s := if s.mon_free = [] then monGetmoremem s k else s
  match s.mon_free with
  | [] => ({ s with aborted := true }, 0)
  | mon :: rest => ({ s with mon_free := rest }, mon)

/-- An entry for a new source: from the free list, or the oldest, or none. -/
def getEntry (s : MonSys) (k : Knobs) (recv_time : LFp) (refuse : Bool) : Option (MonSys × Nat) :=
  if s.mru_entries < k.mru_mindepth then some (takeFree s k)
  else
    match s.mon_mru_list.getLast? with
    | some oldest =>
      if k.mru_maxage.toInt < interval recv_time (s.mem oldest).last then
        some (monReclaimEntry s oldest, oldest)
      else if s.mon_free ≠ [] ∨ s.mru_alloc < k.mru_maxdepth then some (takeFree s k)
      else if refuse then none
      else some (monReclaimEntry s oldest, oldest)
    | none =>
      if s.mon_free ≠ [] ∨ s.mru_alloc < k.mru_maxdepth then some (takeFree s k)
      else if refuse then none
      else some ({ s with aborted := true }, 0)

/-- The entry of the source is updated and moved to the head of the MRU list. -/
def touchEntry (s : MonSys) (k : Knobs) (p : MonPacket) (flags : BitVec 16) (mon : Nat) : MonSys :=
  { s with
    mem := Function.update s.mem mon ((s.mem mon).again k p flags)
    mon_mru_list := mon :: s.mon_mru_list.erase mon }

/-- The entry is initialized and linked into the hash table and at the head of the MRU list. -/
def insertEntry (s : MonSys) (p : MonPacket) (flags : BitVec 16) (mon : Nat) : MonSys :=
  { s with
    mru_entries := s.mru_entries + 1
    mru_peakentries := max s.mru_peakentries (s.mru_entries + 1)
    mem := Function.update s.mem mon (p.first flags)
    mon_hash := Chained.link s.mon_hash (monHash s.mon_hash_bits p.recv_srcadr) mon
    mon_mru_list := mon :: s.mon_mru_list }

/-- `ntp_monitor`. -/
def ntpMonitor (s : MonSys) (k : Knobs) (p : MonPacket) (flags : BitVec 16) (refuse : Bool) :
    MonSys × BitVec 16 :=
  if s.mon_enabled = MON_OFF then (s, doused flags)
  else
    match findMon s p.recv_srcadr with
    | some mon => (touchEntry s k p flags mon, ((s.mem mon).control k p flags).2)
    | none =>
      match getEntry s k p.recv_time refuse with
      | none => (s, doused flags)
      | some (s, mon) => (insertEntry s p flags mon, doused flags)

/-- What can happen next. -/
inductive MonEvent where
  | start (k : Knobs) (mode : BitVec 32)
  | stop (mode : BitVec 32)
  | clearinterface (lcladr : Nat)
  | packet (k : Knobs) (p : MonPacket) (flags : BitVec 16) (refuse : Bool)
deriving DecidableEq, Repr

/-- One step. -/
def monStep (s : MonSys) : MonEvent → MonSys
  | .start k mode => monStart s k mode
  | .stop mode => monStop s mode
  | .clearinterface lcladr => monClearinterface s lcladr
  | .packet k p flags refuse => (ntpMonitor s k p flags refuse).1

end Mon

end NtpSuite
