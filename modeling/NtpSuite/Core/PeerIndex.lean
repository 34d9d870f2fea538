import NtpSuite.Core.PeerTable
import NtpSuite.Core.Monitor

/-!
# The Lists of Associations

The data structures of `ntp_peer.c`. `Core.PeerTable` has one list of
associations; here is how the source keeps them. An association is a structure
in memory, and it is on the list of all associations, on a chain of the table
by address, on a chain of the table by identifier, and on the list of its
local endpoint if it has one. Structures not in use are on the free list, and
there are counters for nearly all of this.

Structures are known by their addresses, and a freed structure is all zeros.
What `newpeer` puts into a structure is that of `Core.PeerTable`, as is the
decision of `set_peerdstadr`. An endpoint has its list and its count under its
name.

`refclock_unpeer`, `restrict_source` and the broadcast settings of sockets do
not touch any of this and are left out.

## Main definitions

* `PeerMem`: The structures, the lists and the counters.
* `PeerMem.newpeer`, `PeerMem.unpeer`, `PeerMem.setPeerdstadr`: The functions.
* `PeerMem.findpeerbyassoc`: The search by identifier.
* `peerStep`: What can happen next.
-/

namespace NtpSuite

def NTP_HASH_SIZE : Nat := 128
def INIT_PEER_ALLOC : Nat := 8
def INC_PEER_ALLOC : Nat := 4

/-- `NTP_HASH_ADDR`. -/
def ntpHashAddr (src : SockAddr) : Nat := sockHash src % NTP_HASH_SIZE

/-- `associd & NTP_HASH_MASK`. -/
def assocHash (associd : Nat) : Nat := associd % NTP_HASH_SIZE

/-- The structures, the lists and the counters. `alloc` is the address of the next structure. -/
structure PeerMem (α : Type) [Zero α] where
  current_time : Nat := 0
  initializing : Bool := false
  mem : Nat → Peer α := fun ptr => { ptr := ptr }
  peer_list : List Nat := []
  peer_hash : Nat → List Nat := fun _ => []
  peer_hash_count : Nat → Int := fun _ => 0
  assoc_hash : Nat → List Nat := fun _ => []
  assoc_hash_count : Nat → Int := fun _ => 0
  peer_free : List Nat
  peer_free_count : Int
  total_peer_structs : Int
  alloc : Nat
  current_association_ID : Nat
  peer_associations : Int := 0
  peer_preempt : Int := 0
  peer_ntpdate : Int := 0
  peer_demobilizations : Nat := 0
  peers : Endpt → List Nat := fun _ => []
  peercnt : Endpt → Int := fun _ => 0
  aborted : Bool := false

namespace PeerMem

section Lists

variable {α : Type} [Zero α]

/-- `init_peer`, with the random number for the first identifier. -/
def initPeers (associd : Nat) : PeerMem α where
  peer_free := List.range' 1 INIT_PEER_ALLOC
  peer_free_count := INIT_PEER_ALLOC
  total_peer_structs := INIT_PEER_ALLOC
  alloc := INIT_PEER_ALLOC + 1
  current_association_ID := associd

/-- `getmorepeermem`. -/
def getmorepeermem (s : PeerMem α) : PeerMem α :=
  { s with
    peer_free := List.range' s.alloc INC_PEER_ALLOC ++ s.peer_free
    peer_free_count := s.peer_free_count + INC_PEER_ALLOC
    total_peer_structs := s.total_peer_structs + INC_PEER_ALLOC
    alloc := s.alloc + INC_PEER_ALLOC }

/-- `findpeerbyassoc`. -/
def findpeerbyassoc (s : PeerMem α) (assoc : Nat) : Option Nat :=
  (s.assoc_hash (assocHash assoc)).find? fun ptr => (s.mem ptr).associd = assoc

/-! ### Endpoints -/

/-- An association is taken off the list of its endpoint. -/
def unbind (s : PeerMem α) (ptr : Nat) : Option Endpt → PeerMem α
  | none => s
  | some ep =>
    { s with
      peercnt := Function.update s.peercnt ep (s.peercnt ep - 1)
      peers := Chained.unlink s.peers ep ptr }

/-- An association is put on the list of an endpoint. -/
def bind (s : PeerMem α) (ptr : Nat) : Option Endpt → PeerMem α
  | none => s
  | some ep =>
    { s with
      peers := Chained.link s.peers ep ptr
      peercnt := Function.update s.peercnt ep (s.peercnt ep + 1) }

/-! ### The free list -/

/-- The part of `free_peer` that takes an association off the tables and the
    list. A count is restored if the association is not in the table. -/
def unlinkPeer (s : PeerMem α) (ptr : Nat) : PeerMem α :=
  let addr := ntpHashAddr (s.mem ptr).srcadr
  let aid := assocHash (s.mem ptr).associd
  { s with
    peer_hash_count := Function.update s.peer_hash_count addr
      (s.peer_hash_count addr - if ptr ∈ s.peer_hash addr then 1 else 0)
    peer_hash := Chained.unlink s.peer_hash addr ptr
    assoc_hash_count := Function.update s.assoc_hash_count aid
      (s.assoc_hash_count aid - if ptr ∈ s.assoc_hash aid then 1 else 0)
    assoc_hash := Chained.unlink s.assoc_hash aid ptr
    peer_list := s.peer_list.erase ptr }

/-- `free_peer`. -/
def freePeer (s : PeerMem α) (ptr : Nat) (unlink_peer : Bool) : PeerMem α :=
  let s := if unlink_peer then s.unlinkPeer ptr else s
  { s with
    mem := Function.update s.mem ptr { ptr := ptr }
    peer_free := ptr :: s.peer_free
    peer_free_count := s.peer_free_count + 1 }

/-- The association at an address is put in both tables and on the list. -/
def linkPeer (s : PeerMem α) (ptr : Nat) : PeerMem α :=
  let addr := ntpHashAddr (s.mem ptr).srcadr
  let aid := assocHash (s.mem ptr).associd
  { s with
    peer_hash := Chained.link s.peer_hash addr ptr
    peer_hash_count := Function.update s.peer_hash_count addr (s.peer_hash_count addr + 1)
    assoc_hash := Chained.link s.assoc_hash aid ptr
    assoc_hash_count := Function.update s.assoc_hash_count aid (s.assoc_hash_count aid + 1)
    peer_list := ptr :: s.peer_list }

/-- A structure leaves the free list, an association is counted, and its identifier is used up. -/
def countPeer (c : Cfg α) (s : PeerMem α) (a : NewPeer) (rest : List Nat) : PeerMem α :=
  { s with
    peer_free := rest
    peer_free_count := s.peer_free_count - 1
    peer_associations := s.peer_associations + 1
    peer_preempt := if a.flags.preempt then s.peer_preempt + 1 else s.peer_preempt
    current_association_ID := nextAssocId s.current_association_ID
    peer_ntpdate := if c.mode_ntpdate then s.peer_ntpdate + 1 else s.peer_ntpdate }

/-- A structure for a new association. -/
def takePeer (c : Cfg α) (s : PeerMem α) (a : NewPeer) : Option (Nat × PeerMem α) :=
  let s := if s.peer_free_count = 0 then s.getmorepeermem else s
  match s.peer_free with
  | [] => none
  | ptr :: rest => some (ptr, s.countPeer c a rest)

end Lists

variable {α : Type} [Field α] [LinearOrder α]

/-- `set_peerdstadr`. -/
def setPeerdstadr (s : PeerMem α) (ptr : Nat) (dstadr : Option Endpt) : PeerMem α :=
  let q := NtpSuite.setPeerdstadr (s.mem ptr) dstadr
  if q.dstadr = (s.mem ptr).dstadr then s
  else
    ({ s with mem := Function.update s.mem ptr q }.unbind ptr (s.mem ptr).dstadr).bind ptr q.dstadr

/-- `unpeer`. -/
def unpeer (s : PeerMem α) (ptr : Nat) : PeerMem α :=
  let s := s.setPeerdstadr ptr none
  let s := { s with
    peer_demobilizations := s.peer_demobilizations + 1
    peer_associations := s.peer_associations - 1
    peer_preempt := if (s.mem ptr).flags.preempt then s.peer_preempt - 1 else s.peer_preempt }
  s.freePeer ptr true

/-- The associations among which `findexistingpeer` searches: all for a name,
    and one chain for an address. -/
def searched (s : PeerMem α) (a : NewPeer) : List Nat :=
  if a.hostname.isSome then s.peer_list else s.peer_hash (ntpHashAddr a.srcadr)

/-- The request for an association is refused. -/
def refusePeer (c : Cfg α) (e : Env α) (s : PeerMem α) (a : NewPeer) : Bool :=
  (c.autokey && !c.crypto_flags && (decide (a.key > NTP_MAXKEY) || a.flags.skey))
    || (s.searched a).any fun ptr => isDuplicate e a (s.mem ptr)

/-- The global variables that go into a new association. -/
def vars (s : PeerMem α) : Sys α :=
  { current_time := s.current_time
    initializing := s.initializing
    current_association_ID := s.current_association_ID
    peer_associations := s.peer_associations }

/-- `newpeer`: the address of the new association, or `none`. An empty free list
    would be a null pointer. -/
def newpeer (c : Cfg α) (e : Env α) (s : PeerMem α) (a : NewPeer) : PeerMem α × Option Nat :=
  if refusePeer c e s a then (s, none)
  else
    match s.takePeer c a with
    | none => ({ s with aborted := true }, none)
    | some (ptr, s1) =>
      let p := initPeer c e s.vars a ptr
      let s1 := { s1 with mem := Function.update s1.mem ptr p }.bind ptr p.dstadr
      match startPeer c e a p with
      | none => ((s1.setPeerdstadr ptr none).freePeer ptr false, none)
      | some p => ({ s1 with mem := Function.update s1.mem ptr p }.linkPeer ptr, some ptr)

end PeerMem

/-! ### Runs -/

section Runs

variable {α : Type} [Field α] [LinearOrder α]

/-- What can happen next. The rest of the daemon may change an association in
    place, and the clock. -/
inductive PeerEvent (α : Type) [Zero α] where
  | newpeer (e : Env α) (a : NewPeer)
  | unpeer (ptr : Nat)
  | setPeerdstadr (ptr : Nat) (dstadr : Option Endpt)
  | change (ptr : Nat) (p : Peer α)
  | clock (current_time : Nat) (initializing : Bool)

/-- Nothing changes that the lists depend on. -/
def sameIndexed (p q : Peer α) : Bool :=
  q.srcadr == p.srcadr && q.associd == p.associd && q.dstadr == p.dstadr && q.ptr == p.ptr
    && q.flags.preempt == p.flags.preempt

/-- One step. Only live associations are demobilized, moved and changed. -/
def peerStep (c : Cfg α) (s : PeerMem α) : PeerEvent α → PeerMem α
  | .newpeer e a => (s.newpeer c e a).1
  | .unpeer ptr => if ptr ∈ s.peer_list then s.unpeer ptr else s
  | .setPeerdstadr ptr dstadr => if ptr ∈ s.peer_list then s.setPeerdstadr ptr dstadr else s
  | .change ptr p =>
    if ptr ∈ s.peer_list ∧ sameIndexed (s.mem ptr) p = true then
      { s with mem := Function.update s.mem ptr p }
    else s
  | .clock current_time initializing =>
    { s with current_time := current_time, initializing := initializing }

end Runs

end NtpSuite
