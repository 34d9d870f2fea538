import NtpSuite.Core.PeerTable
import NtpSuite.Core.Packet
import NtpSuite.Lib.SelectionSort

/-!
# The System Process

`clock_select`, `clock_update` and `clock_filter`: how a new sample moves
through the filter of its association, how the selection picks a system peer
among all associations, and what the choice does to the daemon.

The selection works on an array of candidates. Each of its steps is a
definition on the list of candidates still in the game: the fitness tests
give `candidates`, the intersection gives the bounds `low` and `high`, the
cull gives `truechimers`, the fallbacks give `nominees`, the cluster rounds
give `survivors`, and the mitigation rules give the system peer. An entry of
the array carries the association it points to; the selection changes no
field of an association that it also reads.

## Main definitions

* `intersect`: The bounds of the intersection interval.
* `cluster`: The rounds of the cluster algorithm.
* `mitigate`: The clockhop, prefer and PPS rules.
* `clockSelect`: The selection, with the clock update at its end.
* `clockFilter`: The clock filter.
-/

namespace NtpSuite

variable {α : Type} [Field α] [LinearOrder α]

/-- An interval endpoint: `type` is -1 at a lower end and 1 at an upper. -/
structure Endpoint (α : Type) where
  type : Int
  val : α
deriving DecidableEq, Repr

/-- An entry of the candidate array. -/
structure PeerSelect (α : Type) [Zero α] where
  peer : Peer α
  synch : α
  error : α
  seljit : α := 0
deriving DecidableEq, Repr

section Intersection

variable {β : Type} [LinearOrder β]

/-- The upward scan for `low`. -/
def scanLow (k : Int) : Int → β → List (Endpoint β) → β
  | _, low, [] => low
  | n, _, e :: es =>
    if n - e.type ≥ k then e.val else scanLow k (n - e.type) e.val es

/-- The downward scan for `high`, on the endpoints from the last one on. -/
def scanHigh (k : Int) : Int → β → List (Endpoint β) → β
  | _, high, [] => high
  | n, _, e :: es =>
    if n + e.type ≥ k then e.val else scanHigh k (n + e.type) e.val es

/-- The loop over the number of falsetickers: the number it stops at, and `low` and `high` there. -/
def intersectLoop (nlist : Nat) (es : List (Endpoint β)) : Nat → Nat → β → β → Nat × β × β
  | 0, allow, low, high => (allow, low, high)
  | fuel + 1, allow, low, high =>
    if 2 * allow < nlist then
      -- Both scans count from zero in every round, but keep the last values.
      let low := scanLow ((nlist : Int) - allow) 0 low es
      let high := scanHigh ((nlist : Int) - allow) 0 high es.reverse
      if high > low then (allow, low, high)
      else intersectLoop nlist es fuel (allow + 1) low high
    else (allow, low, high)

/-- The intersection algorithm on unsorted endpoints. The source sorts an array of indices and reads
    the endpoints through it; here the endpoints are sorted themselves. -/
def intersect (nlist : Nat) (low high : β) (es : List (Endpoint β)) : Nat × β × β :=
  intersectLoop nlist (SelectionSort.sort Endpoint.val es) (nlist + 1) 0 low high

end Intersection

/-- What the first pass of the selection makes of an association. -/
inductive Rank where
  | reject | orphan | localclock | acts | sane
deriving DecidableEq, Repr

/-- The tests of the first pass, in order. -/
def classify (c : Cfg α) (e : Env α) (now : Nat) (p : Peer α) : Rank :=
  if peerUnfit c e now p then .reject
  -- A peer at the orphan stratum can only be an orphan parent.
  else if (p.stratum : Int) = c.sys_orphan then .orphan
  else if (p.stratum : Int) > c.sys_orphan then .reject
  else if c.refclock && !p.flags.prefer && p.refclktype == REFCLK_LOCALCLOCK then .localclock
  else if c.refclock && !p.flags.prefer && p.refclktype == REFCLK_ACTS then .acts
  else .sane

/-- The candidates that go into the intersection. -/
def candidates (c : Cfg α) (e : Env α) (s : Sys α) : List (PeerSelect α) :=
  (s.peer_list.filter (fun p => classify c e s.current_time p = .sane)).map
    (fun p => { peer := p, synch := rootDistance c s.current_time p, error := p.jitter })

/-- `addr2refid`, in host order. -/
def addr2refid (e : Env α) (a : SockAddr) : BitVec 32 :=
  if a.af = .inet then BitVec.ofNat 32 a.addr else e.addr2refid6 a.addr

/-- The election of the orphan parent: the lowest metric below our own. -/
def typeorphan (c : Cfg α) (e : Env α) (s : Sys α) : Option (Peer α) :=
  (s.peer_list.filter (fun p => classify c e s.current_time p = .orphan)).foldl (fun best p =>
    -- With no interface our own metric is the largest there is.
    let localmet := match p.dstadr with
      | some ep => ep.addr_refid.toNat
      | none => 2 ^ 32 - 1
    let peermet := (addr2refid e p.srcadr).toNat
    let orphmet := match best with
      | some b => (addr2refid e b.srcadr).toNat
      | none => 2 * (2 ^ 32 - 1)
    if peermet < localmet ∧ peermet < orphmet then some p else best) none

/-- The modem driver and the local driver, first come first served. -/
def typedriver (c : Cfg α) (e : Env α) (s : Sys α) (r : Rank) : Option (Peer α) :=
  if s.current_time > s.orphwait then
    s.peer_list.find? (fun p => classify c e s.current_time p = r)
  else none

/-- The endpoints of the candidates, unsorted. -/
def endpoints (ps : List (PeerSelect α)) : List (Endpoint α) :=
  ps.flatMap (fun q =>
    [⟨-1, q.peer.offset - q.synch⟩, ⟨1, q.peer.offset + q.synch⟩])

/-- `low` and `high` for the candidates. -/
def bounds (ps : List (PeerSelect α)) : α × α :=
  (intersect ps.length (10 ^ 9) (-10 ^ 9) (endpoints ps)).2

/-- The candidate overlaps the intersection interval, or is always true. -/
def isTruechimer (low high : α) (q : PeerSelect α) : Bool :=
  -- If no interval was found everybody is a falseticker.
  !(decide (high ≤ low) || decide (q.peer.offset + q.synch < low)
    || decide (q.peer.offset - q.synch > high)) || q.peer.flags.truechimer

/-- The candidate is kept out of the cluster population as a PPS source. -/
def isPps (c : Cfg α) (q : PeerSelect α) : Bool := c.refclock && q.peer.flags.pps

/-- The candidates left by the cull. -/
def truechimers (c : Cfg α) (ps : List (PeerSelect α)) : List (PeerSelect α) :=
  ps.filter (fun q => isTruechimer (bounds ps).1 (bounds ps).2 q && !isPps c q)

/-- The first PPS source that survives the intersection. -/
def typepps (c : Cfg α) (ps : List (PeerSelect α)) : Option (Peer α) :=
  (ps.find? (fun q => isTruechimer (bounds ps).1 (bounds ps).2 q && isPps c q)).map
    PeerSelect.peer

/-- The last resort when the cull leaves nobody. -/
def fallback (c : Cfg α) (e : Env α) (s : Sys α) : Option (Peer α) :=
  match typedriver c e s .acts, typedriver c e s .localclock with
  | some p, _ => some p
  | none, some p => some p
  | none, none => typeorphan c e s

/-- The population of the cluster algorithm. -/
def nominees (c : Cfg α) (e : Env α) (s : Sys α) : List (PeerSelect α) :=
  match truechimers c (candidates c e s) with
  | [] => (fallback c e s).toList.map (fun p => { peer := p, synch := c.sys_mindisp, error := 0 })
  | ps => ps

/-- The selection jitter of each candidate with respect to the others. -/
def withSeljit (c : Cfg α) (ps : List (PeerSelect α)) : List (PeerSelect α) :=
  ps.map (fun i => { i with
    seljit :=
      if ps.length > 1 then
        c.sqrt ((ps.map (fun j => (j.peer.offset - i.peer.offset) ^ 2)).sum
          / ((ps.length - 1 : Nat) : α))
      else 0 })

/-- The place of the candidate with the worst metric, and its selection jitter. -/
def worst (ps : List (PeerSelect α)) : Nat × α :=
  let r := ps.zipIdx.foldl (fun (acc : α × Nat × α) q =>
    if q.1.seljit * q.1.synch > acc.1 then (q.1.seljit * q.1.synch, q.2, q.1.seljit) else acc)
    (-10 ^ 9, 0, 0)
  r.2

/-- The rounds of the cluster algorithm. The second result is the candidates dropped as excess. -/
def clusterLoop (c : Cfg α) : Nat → List (PeerSelect α) → List Nat →
    List (PeerSelect α) × List Nat
  | 0, ps, excess => (ps, excess)
  | fuel + 1, ps, excess =>
    let ps := withSeljit c ps
    let d := ps.foldl (fun d q => if q.error < d then q.error else d) (10 ^ 9)
    let k := (worst ps).1
    let g := max (worst ps).2 (logToD c.sys_precision)
    match ps[k]? with
    | none => (ps, excess)
    | some q =>
      -- Stop when too few are left, when casting out does not help any more, or
      -- when it would hit a peer that is to be kept.
      if (ps.length : Int) ≤ max 1 c.sys_minclock ∨ g ≤ d
          ∨ (q.peer.flags.truechimer || q.peer.flags.prefer) then (ps, excess)
      else clusterLoop c fuel (ps.eraseIdx k)
        (if (ps.length : Int) > c.sys_maxclock then q.peer.ptr :: excess else excess)

/-- The cluster algorithm. -/
def cluster (c : Cfg α) (ps : List (PeerSelect α)) : List (PeerSelect α) × List Nat :=
  clusterLoop c (ps.length + 1) ps []

/-- The survivors of the selection. -/
def survivors (c : Cfg α) (e : Env α) (s : Sys α) : List (PeerSelect α) :=
  (cluster c (nominees c e s)).1

/-- The survivor with the best metric. -/
def speer (c : Cfg α) (ps : List (PeerSelect α)) : Option (PeerSelect α) :=
  (ps.foldl (fun (acc : α × Option (PeerSelect α)) q =>
    let met := q.seljit * q.synch + (q.peer.stratum : α) * c.sys_mindisp
    if met < acc.1 then (met, some q) else acc) (10 ^ 9, ps.head?)).2

/-- The prefer peer: the last one marked so among the survivors. -/
def sysPrefer (ps : List (PeerSelect α)) : Option (Peer α) :=
  (ps.reverse.find? (fun q => q.peer.flags.prefer)).map PeerSelect.peer

/-- The votes for a leap second. -/
def leapVote (ps : List (PeerSelect α)) : Int :=
  ps.foldl (fun v q =>
    if q.peer.leap = .addsecond then
      -- A reference clock outvotes everybody.
      if q.peer.flags.refclock then ps.length else v + 1
    else v) 0

/-- `clock_combine`: the weighted offset and jitter of the survivors. -/
def clockCombine (c : Cfg α) (ps : List (PeerSelect α)) (sp : PeerSelect α) : α × α :=
  let y := (ps.map (fun q => 1 / q.synch)).sum
  let z := (ps.map (fun q => 1 / q.synch * q.peer.offset)).sum
  let w := (ps.map (fun q => 1 / q.synch * (q.peer.offset - sp.peer.offset) ^ 2)).sum
  (z / y, c.sqrt (w / y + sp.seljit ^ 2))

/-- What the selection decides: the system peer, if any, and the variables that go with it. -/
structure Choice (α : Type) [Zero α] where
  typesystem : Option (Peer α)
  sys_clockhop : α
  sys_offset : α
  sys_jitter : α

/-- The clockhop threshold after a close call. -/
def hopThreshold (c : Cfg α) (sys_clockhop : α) : α :=
  if sys_clockhop = 0 then c.sys_mindisp else sys_clockhop / 2

/-- The clockhop dance: stay with the old system peer while its offset is
    close enough to the one selected. -/
def clockhop (c : Cfg α) (sys_clockhop : α) (osys : Option (Peer α)) (p : Peer α) :
    Peer α × α :=
  match osys with
  | none => (p, 0)
  | some o =>
    if o.ptr = p.ptr then (p, 0)
    else if |p.offset - o.offset| < c.sys_mindisp then
      -- The threshold is halved each time, so the dance ends.
      if |p.offset - o.offset| < hopThreshold c sys_clockhop then
        (o, hopThreshold c sys_clockhop)
      else (p, 0)
    else (p, 0)

/-- The previous system peer, as the selection finds it. -/
def osysPeer (s : Sys α) : Option (Peer α) := s.sys_peer.map s.deref

/-- The choice before the PPS rule. -/
def mitigate (c : Cfg α) (e : Env α) (s : Sys α) : Choice α :=
  let ps := survivors c e s
  match speer c ps with
  | none => ⟨none, s.sys_clockhop, s.sys_offset, s.sys_jitter⟩
  | some sp =>
    if (ps.length : Int) ≥ c.sys_minsane then
      let hop := clockhop c s.sys_clockhop (osysPeer s) sp.peer
      -- The prefer peer is used alone, without averaging.
      match sysPrefer ps with
      | none =>
        let comb := clockCombine c ps sp
        ⟨some hop.1, hop.2, comb.1, comb.2⟩
      | some p => ⟨some p, 0, p.offset, p.jitter⟩
    else ⟨none, s.sys_clockhop, s.sys_offset, s.sys_jitter⟩

/-- The PPS source takes over. -/
def ppsRule (c : Cfg α) (e : Env α) (s : Sys α) (ch : Choice α) (p : Peer α) : Bool :=
  decide (|ch.sys_offset| < 2 / 5)
    && (p.refclktype != REFCLK_ATOM_PPS
      || ((sysPrefer (survivors c e s)).isSome
        || (ch.typesystem.isNone && decide (c.sys_minsane = 0))))

/-- The choice of the selection. -/
def choose (c : Cfg α) (e : Env α) (s : Sys α) : Choice α :=
  let ch := mitigate c e s
  match typepps c (candidates c e s) with
  | none => ch
  | some p => if ppsRule c e s ch p then ⟨some p, 0, p.offset, p.jitter⟩ else ch

/-- The status of an association at the end of the selection. Of the marks
    the selection makes one after the other, the last one counts. -/
def newStatus (c : Cfg α) (e : Env α) (s : Sys α) (p : Peer α) : SelStatus :=
  let isAt (q : Option (Peer α)) : Bool := (q.map Peer.ptr) == some p.ptr
  let isIn (ps : List (PeerSelect α)) : Bool := ps.any (fun q => q.peer.ptr == p.ptr)
  let cl := cluster c (nominees c e s)
  let pps := match typepps c (candidates c e s) with
    | none => none
    | some q => if ppsRule c e s (mitigate c e s) q then some q else none
  if isAt pps then .pps
  else if isAt (mitigate c e s).typesystem then .syspeer
  else if isIn cl.1 then .synccand
  else if cl.2.contains p.ptr then .excess
  else if isIn (nominees c e s) then .selcand
  else if isIn (candidates c e s) then .sane
  else .reject

/-- The marks the selection leaves on an association. -/
def markPeer (c : Cfg α) (e : Env α) (s : Sys α) (p : Peer α) : Peer α :=
  { testFit c e s.current_time p with
    new_status := newStatus c e s p
    unreach := if (survivors c e s).any (fun q => q.peer.ptr == p.ptr) then 0 else p.unreach }

/-- Apply a function to one association. -/
def Sys.modifyPeer (s : Sys α) (ptr : Nat) (f : Peer α → Peer α) : Sys α :=
  { s with peer_list := s.peer_list.map (fun p => if p.ptr = ptr then f p else p) }

/-- The stratum of a system synchronized to the peer. -/
def sysStratum (p : Peer α) : Nat := min (p.stratum + 1) STRATUM_UNSPEC

/-- The system variables `clock_update` derives from the new system peer. -/
def systemVars (c : Cfg α) (e : Env α) (s : Sys α) (p : Peer α) : Sys α :=
  { s with
    sys_peer := some p.ptr
    sys_epoch := p.epoch
    sys_poll := min (max s.sys_poll p.minpoll) p.maxpoll
    sys_stratum := sysStratum p
    -- A clock lends its name; a server is named by its address.
    sys_refid := if p.stratum = STRATUM_REFCLOCK ∨ p.stratum = STRATUM_UNSPEC then p.refid
      else addr2refid e p.srcadr
    sys_rootdisp := max (|s.sys_offset| + p.disp + p.rootdisp + (p.delay + p.rootdelay) / 2
      + c.clock_phi * ((s.current_time - p.update : Nat) : α) + s.sys_jitter) c.sys_mindisp
    sys_rootdelay := p.delay + p.rootdelay
    sys_reftime := p.dst }

/-- `poll_update` for the system peer. -/
def pollSystem (c : Cfg α) (e : Env α) (s : Sys α) (ptr : Nat) : Sys α :=
  s.modifyPeer ptr (fun p => pollUpdate c s.current_time (e.ntp_random 4) p s.sys_poll)

/-- What the clock discipline does to the poll process. -/
def discipline (c : Cfg α) (e : Env α) (r : LocalClock) (s : Sys α) (ptr : Nat) : Sys α :=
  if r.polled then pollSystem c e { s with sys_poll := r.sys_poll } ptr
  else { s with sys_poll := r.sys_poll }

/-- The panic exit ends the daemon, a step of the clock flushes every
    association, and a slew sets the leap bits. -/
def clockOutcome (c : Cfg α) (e : Env α) (rval : Int) (s : Sys α) : Sys α :=
  if rval = -1 then { s with exited := true }
  else if rval = 2 then
    { clearAll c e s with
      sys_leap := .notinsync
      sys_stratum := STRATUM_UNSPEC
      sys_refid := 0x53544550
      sys_rootdelay := 0
      sys_rootdisp := 0
      sys_reftime := 0
      sys_jitter := logToD c.sys_precision }
  else if rval = 1 then
    { s with sys_leap := if s.sys_leap = .notinsync then .nowarning else s.sys_leap }
  else s

/-- `clock_update`. -/
def clockUpdate (c : Cfg α) (e : Env α) (s : Sys α) (ptr : Nat) : Sys α :=
  let s := pollSystem c e (systemVars c e s (s.deref ptr)) ptr
  let r := e.local_clock (s.deref ptr)
  clockOutcome c e r.rval (discipline c e r s ptr)

def PEVNT_NEWPEER : Nat := 10

/-- The association `clock_select` passes to `clock_update`, if it gets that
    far: the system peer is used only with data newer than the last used. -/
def updatePeer (c : Cfg α) (e : Env α) (s : Sys α) : Option (Peer α) :=
  match (choose c e s).typesystem with
  | none => none
  | some p => if p.epoch ≤ s.sys_epoch then none else some p

/-- The variables the selection sets on its way to the system peer. -/
def selectVars (c : Cfg α) (e : Env α) (s : Sys α) : Sys α :=
  let ch := choose c e s
  { s with
    peer_list := s.peer_list.map (markPeer c e s)
    sys_survivors := (survivors c e s).length
    leap_vote := leapVote (survivors c e s)
    sys_clockhop := ch.sys_clockhop
    sys_offset := ch.sys_offset
    sys_jitter := ch.sys_jitter }

/-- Make the new status of every association its status. -/
def settleStatus (s : Sys α) : Sys α :=
  { s with peer_list := s.peer_list.map (fun p => { p with status := p.new_status }) }

/-- The end of the selection when there is no system peer. -/
def noSystemPeer (c : Cfg α) (s : Sys α) : Sys α :=
  { settleStatus s with
    orphwait := if s.sys_peer.isSome ∧ c.sys_orphwait > 0 then
        (s.current_time + c.sys_orphwait).toNat
      else s.orphwait
    sys_peer := none }

/-- Report a new system peer. -/
def reportNewpeer (s : Sys α) (ptr : Nat) : Sys α :=
  if s.sys_peer = some ptr then s else s.modifyPeer ptr (reportEvent PEVNT_NEWPEER)

/-- `clock_select`. -/
def clockSelect (c : Cfg α) (e : Env α) (s : Sys α) : Sys α :=
  if (choose c e s).typesystem.isNone then noSystemPeer c (selectVars c e s)
  else match updatePeer c e s with
    -- No new data: the status of the last round is kept.
    | none => selectVars c e s
    | some p => clockUpdate c e (reportNewpeer (settleStatus (selectVars c e s)) p.ptr) p.ptr

end NtpSuite
