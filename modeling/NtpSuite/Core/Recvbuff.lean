import NtpSuite.Lib.Linked

/-!
# Receive Buffers

The buffers of `libntp/recvbuff.c`, with the list macros of `ntp_lists.h` that
they are kept in.

A buffer is on the free list, on the FIFO of full buffers, or with somebody
who took it from one of the two. Both lists run through the same link. The
FIFO has an indirect tail pointer: not the address of the last buffer, but
the address of the pointer to it, which is the head of the FIFO or the link
of the last buffer but one.

Addresses of buffers are numbers, given out in the order of allocation. A null
pointer that would be dereferenced and an assertion that fails both set
`aborted`. Two switches of the build matter: list debugging, which checks the
FIFO around every operation and clears the links of what is taken off, and
signaled input, which allocates buffers before a full one is handed out.

## Main definitions

* `RecvBuffs`: The buffers and the anchors of both lists.
* `linkFifo`, `unlinkFifo`, `unlinkMidFifo`: The FIFO macros.
* `getFreeRecvBuffer`, `addFullRecvBuffer`, `getFullRecvBuffer`,
  `purgeRecvBuffersForFd`, `freerecvbuf`: The operations.
* `recvStep`: A call by somebody who keeps to the rules.
-/

namespace NtpSuite

open Linked

/-- Buffers that are allocated when there are none left. -/
def RECV_INC : Nat := 5

/-- How the library was built: `NTP_DEBUG_LISTS_H` and `HAVE_SIGNALED_IO`. -/
structure RecvBuild where
  debug_lists : Bool := false
  signaled_io : Bool := false
deriving DecidableEq, Repr

/-- The buffers and the anchors of both lists. -/
structure RecvBuffs where
  link : Nat → Option Nat := fun _ => none
  fd : Nat → Int := fun _ => 0
  used : Nat → Int := fun _ => 0
  phead : Option Nat := none
  pptail : Option (Loc Nat) := none
  free_recv_list : Option Nat := none
  full_recvbufs : Nat := 0
  free_recvbufs : Nat := 0
  total_recvbufs : Nat := 0
  lowater_adds : Nat := 0
  buffer_shortfall : Nat := 0
  aborted : Bool := false

/-! ### The FIFO -/

/-- The loop of `check_gen_fifo_consistency`: the address of the pointer to the last buffer. -/
def scanTail (link : Nat → Option Nat) : Nat → Option Nat → Loc Nat → Loc Nat
  | 0, _, loc => loc
  | _ + 1, none, loc => loc
  | n + 1, some pthis, loc =>
    scanTail link n (link pthis) (if (link pthis).isSome then .link pthis else loc)

/-- `check_gen_fifo_consistency`. -/
def checkGenFifoConsistency (s : RecvBuffs) : Bool :=
  (s.phead.isNone == s.pptail.isNone) &&
    (s.pptail.isNone || s.pptail == some (scanTail s.link (s.total_recvbufs + 1) s.phead .head))

/-- `CHECK_FIFO_CONSISTENCY`, which does nothing without list debugging. -/
def checkFifo (b : RecvBuild) (s : RecvBuffs) : RecvBuffs :=
  if b.debug_lists && !checkGenFifoConsistency s then { s with aborted := true } else s

/-- `MAYBE_Z_LISTS`. -/
def maybeZLists (b : RecvBuild) (s : RecvBuffs) (p : Nat) : RecvBuffs :=
  if b.debug_lists then { s with link := Function.update s.link p none } else s

/-- What `LINK_FIFO` does: the entry is added at the tail. -/
def appendFifo (s : RecvBuffs) (pentry : Nat) : RecvBuffs :=
  let s := { s with link := Function.update s.link pentry none }
  match s.pptail with
  | none => { s with phead := some pentry, pptail := some .head }
  | some loc =>
    match read s.phead s.link loc with
    | none => { s with aborted := true }
    | some last =>
      let s := { s with link := Function.update s.link last (some pentry) }
      { s with pptail := (read s.phead s.link loc).map .link }

/-- `LINK_FIFO`. -/
def linkFifo (b : RecvBuild) (s : RecvBuffs) (pentry : Nat) : RecvBuffs :=
  checkFifo b (appendFifo (checkFifo b s) pentry)

/-- How both `UNLINK_FIFO` and `UNLINK_MID_FIFO` repair the tail pointer, given
    what now stands where the unlinked entry stood. -/
def repairTail (s : RecvBuffs) (punlinked : Nat) (next : Option Nat) : RecvBuffs :=
  if next = none then { s with pptail := none }
  else if s.pptail = some (.link punlinked) then { s with pptail := some .head }
  else s

/-- The entry at an address is unlinked. -/
def unlinkAt (s : RecvBuffs) (punlinked : Nat) (ppentry : Loc Nat) : RecvBuffs :=
  let r := write s.phead s.link (s.link punlinked) ppentry
  repairTail { s with phead := r.1, link := r.2 } punlinked (read r.1 r.2 ppentry)

/-- `UNLINK_FIFO`. -/
def unlinkFifo (b : RecvBuild) (s : RecvBuffs) : RecvBuffs × Option Nat :=
  let s := checkFifo b s
  match s.phead with
  | none => (s, none)
  | some p => (checkFifo b (maybeZLists b (unlinkAt s p .head) p), some p)

/-- How the search of `UNLINK_MID_FIFO` ends. -/
inductive Found where
  | at (loc : Loc Nat)
  | missing
  | fault
deriving DecidableEq, Repr

/-- The search of `UNLINK_MID_FIFO` for the address of the pointer to an entry. -/
def findEntry (s : RecvBuffs) (tounlink : Nat) : Nat → Loc Nat → Found
  | 0, _ => .fault
  | n + 1, ppentry =>
    match read s.phead s.link ppentry with
    | none => .fault
    | some p =>
      if p = tounlink then .at ppentry
      else if (s.link p).isSome then findEntry s tounlink n (.link p)
      else .missing

/-- `UNLINK_MID_FIFO`. -/
def unlinkMidFifo (b : RecvBuild) (s : RecvBuffs) (tounlink : Nat) : RecvBuffs × Option Nat :=
  let s := checkFifo b s
  match findEntry s tounlink (s.total_recvbufs + 1) .head with
  | .fault => ({ s with aborted := true }, none)
  | .missing => (s, none)
  | .at ppentry =>
    (checkFifo b (maybeZLists b (unlinkAt s tounlink ppentry) tounlink), some tounlink)

/-! ### The buffers -/

/-- A turn of the loop of `create_buffers`. -/
def createBuffer (s : RecvBuffs) : RecvBuffs :=
  { s with
    link := Function.update s.link s.total_recvbufs s.free_recv_list
    free_recv_list := some s.total_recvbufs
    free_recvbufs := s.free_recvbufs + 1
    total_recvbufs := s.total_recvbufs + 1 }

/-- `create_buffers`. -/
def createBuffers (s : RecvBuffs) (nbufs : Nat) : RecvBuffs :=
  let t := createBuffer^[nbufs + s.buffer_shortfall] { s with buffer_shortfall := 0 }
  { t with lowater_adds := t.lowater_adds + 1 }

/-- `init_recvbuff`. -/
def initRecvbuff (nbufs : Nat) : RecvBuffs := createBuffers {} nbufs

/-- `freerecvbuf`. -/
def freerecvbuf (s : RecvBuffs) (rb : Nat) : RecvBuffs :=
  { s with
    used := Function.update s.used rb (s.used rb - 1)
    link := Function.update s.link rb s.free_recv_list
    free_recv_list := some rb
    free_recvbufs := s.free_recvbufs + 1 }

/-- `add_full_recv_buffer`. -/
def addFullRecvBuffer (b : RecvBuild) (s : RecvBuffs) (rb : Nat) : RecvBuffs :=
  let s := linkFifo b s rb
  { s with full_recvbufs := s.full_recvbufs + 1 }

/-- `initialise_buffer`, and the buffer is in use. -/
def initialiseBuffer (s : RecvBuffs) (buff : Nat) : RecvBuffs :=
  { s with
    link := Function.update s.link buff none
    fd := Function.update s.fd buff 0
    used := Function.update s.used buff 1 }

/-- `get_free_recv_buffer`. -/
def getFreeRecvBuffer (b : RecvBuild) (s : RecvBuffs) : RecvBuffs × Option Nat :=
  match s.free_recv_list with
  | none => ({ s with buffer_shortfall := s.buffer_shortfall + 1 }, none)
  | some buffer =>
    let s := maybeZLists b { s with free_recv_list := s.link buffer } buffer
    (initialiseBuffer { s with free_recvbufs := s.free_recvbufs - 1 } buffer, some buffer)

/-- `get_full_recv_buffer`. -/
def getFullRecvBuffer (b : RecvBuild) (s : RecvBuffs) : RecvBuffs × Option Nat :=
  let s :=
    if b.signaled_io && (s.free_recv_list.isNone || 0 < s.buffer_shortfall) then
      createBuffers s RECV_INC
    else s
  let r := unlinkFifo b s
  if r.2.isSome then ({ r.1 with full_recvbufs := r.1.full_recvbufs - 1 }, r.2) else r

/-- The loop of `purge_recv_buffers_for_fd`. -/
def purgeLoop (b : RecvBuild) (fd : Int) : Nat → Option Nat → RecvBuffs → RecvBuffs
  | 0, _, s => s
  | _ + 1, none, s => s
  | n + 1, some rbufp, s =>
    let next := s.link rbufp
    if s.fd rbufp = fd then
      let r := unlinkMidFifo b s rbufp
      let s := if r.2 = some rbufp then r.1 else { r.1 with aborted := true }
      purgeLoop b fd n next (freerecvbuf { s with full_recvbufs := s.full_recvbufs - 1 } rbufp)
    else purgeLoop b fd n next s

/-- `purge_recv_buffers_for_fd`. -/
def purgeRecvBuffersForFd (b : RecvBuild) (s : RecvBuffs) (fd : Int) : RecvBuffs :=
  purgeLoop b fd (s.total_recvbufs + 1) s.phead s

/-! ### Those who use them -/

/-- The buffers, those that somebody has taken off one of the lists, and what should be waiting: the
    buffers that were added and neither handed out nor purged. -/
structure RecvSys where
  build : RecvBuild
  bufs : RecvBuffs
  held : List Nat := []
  waiting : List Nat := []
  handed : List Nat := []

/-- The calls. A buffer that is filled has a descriptor, set by the caller. -/
inductive RecvCall where
  | getFree
  | addFull (rb : Nat) (fd : Int)
  | getFull
  | purge (fd : Int)
  | free (rb : Nat)
deriving DecidableEq, Repr

/-- A call by somebody who keeps to the rules: only buffers that were taken off
    a list and not given back are added or freed. -/
def recvStep (s : RecvSys) : RecvCall → RecvSys
  | .getFree =>
    let r := getFreeRecvBuffer s.build s.bufs
    { s with bufs := r.1, held := r.2.toList ++ s.held }
  | .addFull rb fd =>
    if rb ∈ s.held then
      let bufs := { s.bufs with fd := Function.update s.bufs.fd rb fd }
      { s with
        bufs := addFullRecvBuffer s.build bufs rb
        held := s.held.erase rb
        waiting := s.waiting ++ [rb] }
    else s
  | .getFull =>
    let r := getFullRecvBuffer s.build s.bufs
    { s with
      bufs := r.1
      held := r.2.toList ++ s.held
      waiting := s.waiting.filter (some · ≠ r.2)
      handed := s.handed ++ r.2.toList }
  | .purge fd =>
    { s with
      bufs := purgeRecvBuffersForFd s.build s.bufs fd
      waiting := s.waiting.filter (s.bufs.fd · ≠ fd) }
  | .free rb =>
    if rb ∈ s.held then { s with bufs := freerecvbuf s.bufs rb, held := s.held.erase rb } else s

/-- The start: after `init_recvbuff`. -/
def recvStart (build : RecvBuild) (nbufs : Nat) : RecvSys where
  build := build
  bufs := initRecvbuff nbufs

end NtpSuite
