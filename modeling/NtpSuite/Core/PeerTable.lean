import NtpSuite.Core.Poll

/-!
# The Association Table

Finding, mobilizing and demobilizing associations.

The source keeps the associations in one list and in two hash tables, and a
new association goes to the front of each. A hash chain therefore has its
members in the order of the list, and a search of a chain for an address
finds what a search of the list finds. The model has the list alone.

## Main definitions

* `matchAssoc`, `matchNoPeer`: The table of valid association combinations.
* `findpeer`: The association a datagram belongs to, and what to do with it.
* `newpeer`, `unpeer`: Mobilize and demobilize.
* `peerConfig`: Mobilize from the configuration.
* `scoreAll`: Whether an association may be preempted.
-/

namespace NtpSuite

variable {α : Type} [Field α] [LinearOrder α]

/-- The match codes of the association table. -/
inductive AM where
  | err | nomatch | procpkt | fxmit | manycast | newpass | newbcl
deriving DecidableEq, Repr

/-- The row of the table for no association. -/
def matchNoPeer (pkt_mode : PktMode) : AM :=
  match pkt_mode with
  | .active => .newpass
  | .client => .fxmit
  | .server => .manycast
  | .broadcast => .newbcl
  | .passive => .nomatch
  | _ => .err

/-- `MATCH_ASSOC`: the rows of the table for an association. -/
def matchAssoc (hmode : HMode) (pkt_mode : PktMode) : AM :=
  match hmode, pkt_mode with
  | _, .unspec => .err
  | .active, .active => .procpkt
  | .active, .passive => .procpkt
  | .passive, .active => .procpkt
  | .passive, .passive => .err
  | .client, .server => .procpkt
  | .bclient, .broadcast => .procpkt
  | _, _ => .nomatch

/-- `MDF_SOLICIT_MASK`. -/
def CastFlags.solicit (f : CastFlags) : Bool := f.acast || f.pool

/-- `MDF_TXONLY_MASK`. -/
def CastFlags.txonly (f : CastFlags) : Bool := f.bcast || f.mcast || f.acast || f.pool

/-- `findmanycastpeer`: the solicitor whose last transmit timestamp the packet returns. -/
def findmanycastpeer (s : Sys α) (rb : RecvBuf) : Option (Peer α) :=
  s.peer_list.find? (fun p => p.cast_flags.solicit && rb.recv_pkt.org == p.aorg)

/-- The match code for one association with the address of the packet. A packet that answers a
    solicitation is kept from the association already spun for the server. -/
def matchCode (s : Sys α) (rb : RecvBuf) (pkt_mode : PktMode) (p : Peer α) : AM :=
  let action := matchAssoc p.hmode pkt_mode
  if pkt_mode = .server ∧ action = .procpkt ∧ p.aorg ≠ rb.recv_pkt.org
      ∧ (findmanycastpeer s rb).isSome then .err
  else action

/-- The search loop of `findpeer`. -/
def findpeerLoop (s : Sys α) (rb : RecvBuf) (pkt_mode : PktMode) :
    List (Peer α) → AM × Option (Peer α)
  | [] => (matchNoPeer pkt_mode, none)
  | p :: ps =>
    if rb.recv_srcadr.addrPortEq p.srcadr then
      let action := matchCode s rb pkt_mode p
      -- An error ends the search with no association.
      if action = .err then (.err, none)
      else if action ≠ .nomatch then (action, some p)
      else findpeerLoop s rb pkt_mode ps
    else findpeerLoop s rb pkt_mode ps

/-- `set_peerdstadr`. -/
def setPeerdstadr (p : Peer α) (dstadr : Option Endpt) : Peer α :=
  if p.dstadr = dstadr then p
  else match dstadr with
    | some ep =>
      -- A broadcast client in its volley stays on the unicast interface.
      if p.flags.bc_vol && ep.mcastif && p.hmode == .client then p else { p with dstadr := some ep }
    | none => { p with dstadr := none }

/-- `findpeer`. An association found on another interface is moved to the
    one the packet came in by. The source then searches again; the search
    does not look at interfaces, so it ends at the same association. -/
def findpeer (s : Sys α) (rb : RecvBuf) (pkt_mode : PktMode) : Sys α × AM × Option (Peer α) :=
  match findpeerLoop s rb pkt_mode s.peer_list with
  | (action, none) => (s, action, none)
  | (action, some p) =>
    let q := setPeerdstadr p (some rb.dstadr)
    (s.setPeer q, action, some q)

/-- `tolower` on the letters of ASCII. -/
def toLower (ch : BitVec 8) : BitVec 8 :=
  if 0x41 ≤ ch.toNat ∧ ch.toNat ≤ 0x5a then ch + 0x20 else ch

/-- `strcasecmp` returns zero. -/
def strcaseEq (a b : CStr) : Bool := a.map toLower == b.map toLower

/-- The test of `findexistingpeer`, by name for a pool and by address for everything else. -/
def isExisting (a : NewPeer) (p : Peer α) : Bool :=
  match a.hostname with
  | some name =>
    (match p.hostname with
      | some other => strcaseEq other name
      | none => false)
      && p.hmode == a.hmode
      && (a.srcadr.af == .unspec || p.srcadr.af == .unspec || a.srcadr.af == p.srcadr.af)
  | none =>
    (p.hmode == a.hmode || (p.cast_flags.bclnt && a.cast_flags.bclnt))
      && a.srcadr.addrPortEq p.srcadr

/-- The search of `newpeer` for a duplicate. -/
def isDuplicate (e : Env α) (a : NewPeer) (p : Peer α) : Bool :=
  isExisting a p && match a.dstadr with
    | none => true
    | some ep =>
      p.dstadr == some ep || (a.cast_flags.bclnt && p.cast_flags.bclnt)
        || (ep.wildcard && p.dstadr == e.findinterface a.srcadr)

/-- `minpoll` of a new association, before it is held below `maxpoll`. -/
def initMinpoll (minpoll : Nat) : Nat :=
  if minpoll = 0 then NTP_MINDPOLL else min minpoll NTP_MAXPOLL

/-- `maxpoll` of a new association. -/
def initMaxpoll (maxpoll : Nat) : Nat :=
  if maxpoll = 0 then NTP_MAXDPOLL else max maxpoll NTP_MINPOLL

/-- The reference identifier a new association starts with. -/
def initIdent (f : CastFlags) : BitVec 32 :=
  if f.acast then 0x41435354
  else if f.pool then 0x504f4f4c
  else if f.mcast then 0x4d435354
  else if f.bcast then 0x42435354
  else 0x494e4954

/-- What a driver changes in the poll range when it starts. -/
def driverPoll (clktype : Nat) (p : Peer α) : Peer α :=
  if clktype = REFCLK_ONCORE then { p with minpoll := 4, maxpoll := 4 }
  else if clktype = REFCLK_PALISADE then { p with minpoll := 4, maxpoll := 5 }
  else p

/-- `refclock_newpeer`: the association as the driver leaves it, or `none` if
    the driver does not start. -/
def refclockNewpeer (e : Env α) (p : Peer α) : Option (Peer α) :=
  let clktype := p.srcadr.refclockType
  match e.clock_start clktype with
  | none => none
  | some h =>
    some (driverPoll clktype { p with
      refclktype := clktype
      flags := { p.flags with refclock := true }
      ppoll := p.maxpoll
      toHeader := { h with
        pmode := if p.hmode = .active then PktMode.passive else PktMode.server } })

/-- The association `newpeer` sets up, before any driver sees it. -/
def initPeer (c : Cfg α) (e : Env α) (s : Sys α) (a : NewPeer) (ptr : Nat) : Peer α :=
  let maxpoll := initMaxpoll a.maxpoll
  let minpoll := min (initMinpoll a.minpoll) maxpoll
  let p : Peer α := setPeerdstadr
    { ptr := ptr
      associd := s.current_association_ID
      srcadr := a.srcadr
      hostname := a.hostname
      hmode := a.hmode
      version := a.version
      flags := a.flags
      cast_flags := a.cast_flags
      minpoll := minpoll
      maxpoll := maxpoll } (e.select_peerinterface a.srcadr a.dstadr)
  let p := { p with
    flags := { p.flags with skey := p.flags.skey || (c.autokey && decide (a.key > NTP_MAXKEY)) }
    ttl := a.ttl
    keyid := a.key
    ident := a.ident
    precision := c.sys_precision
    hpoll := minpoll }
  -- The identifier of the cast mode stands in for the reference.
  let p := peerClear c e s.current_time (e.ntp_random 2) s.initializing
    (s.peer_associations + 1) (initIdent a.cast_flags) p
  { p with timereachable := s.current_time, timereceived := s.current_time }

/-- The association `newpeer` puts on the list, if any. -/
def startPeer (c : Cfg α) (e : Env α) (a : NewPeer) (p : Peer α) : Option (Peer α) :=
  if a.srcadr.isRefclockAdr then
    if c.refclock then
      -- A clock with no maximum given is polled at its minimum.
      refclockNewpeer e (if a.maxpoll = 0 then { p with maxpoll := p.minpoll } else p)
    else none
  else some p

/-- The next association identifier; there is no identifier zero. -/
def nextAssocId (id : Nat) : Nat :=
  if (id + 1) % 2 ^ 16 = 0 then 1 else (id + 1) % 2 ^ 16

/-- Take a structure off the free list, or a new one if there is none. -/
def Sys.takePeer (s : Sys α) : Nat × Sys α :=
  match s.peer_free with
  | ptr :: rest => (ptr, { s with peer_free := rest })
  | [] => (s.alloc, { s with alloc := s.alloc + 1 })

/-- The request for an association is refused: Autokey is not configured,
    or the association exists. -/
def refusePeer (c : Cfg α) (e : Env α) (s : Sys α) (a : NewPeer) : Bool :=
  (c.autokey && !c.crypto_flags && (decide (a.key > NTP_MAXKEY) || a.flags.skey))
    || s.peer_list.any (isDuplicate e a)

/-- `newpeer`: the new association, or `none` if there is none. -/
def newpeer (c : Cfg α) (e : Env α) (s : Sys α) (a : NewPeer) : Sys α × Option (Peer α) :=
  let s := s.log (.newpeer a)
  if refusePeer c e s a then (s, none)
  else
    let p := initPeer c e s a s.takePeer.1
    let s := s.takePeer.2
    let s := { s with
      peer_associations := s.peer_associations + 1
      current_association_ID := nextAssocId s.current_association_ID
      peer_ntpdate := if c.mode_ntpdate then s.peer_ntpdate + 1 else s.peer_ntpdate }
    match startPeer c e a p with
    | some p => ({ s with peer_list := p :: s.peer_list }, some p)
    -- A driver that fails gives the structure back, but not the count.
    | none => ({ s with peer_free := p.ptr :: s.peer_free }, none)

/-- `unpeer`. -/
def unpeer (s : Sys α) (ptr : Nat) : Sys α :=
  { s.erasePeer ptr with
    peer_associations := s.peer_associations - 1
    peer_free := ptr :: s.peer_free }

/-- `peer_config`. -/
def peerConfig (c : Cfg α) (e : Env α) (s : Sys α) (a : NewPeer) : Sys α × Option (Peer α) :=
  let cast_flags : CastFlags := match a.hmode with
    | .broadcast => if a.srcadr.isMcast then { mcast := true } else { bcast := true }
    | .client =>
      if a.hostname.isSome ∧ a.srcadr.addr = 0 then { pool := true }
      else if a.srcadr.isMcast then { acast := true }
      else { ucast := true }
    | _ => { ucast := true }
  -- A prototype association must not itself be preempted.
  let flags := { a.flags with
    config := true
    iburst := a.flags.iburst || c.mode_ntpdate
    preempt := a.flags.preempt && !(cast_flags.acast || cast_flags.pool) }
  newpeer c e s { a with flags := flags, cast_flags := cast_flags }

/-- `clear_all`: flush all time values for all associations. -/
def clearAll (c : Cfg α) (e : Env α) (s : Sys α) : Sys α :=
  { s with peer_list := s.peer_list.map (fun p =>
      if p.cast_flags.txonly then p
      else peerClear c e s.current_time (e.ntp_random 3) s.initializing s.peer_associations
        0x53544550 p) }

/-- The rank of a selection status, as its code. -/
def SelStatus.rank : SelStatus → Nat
  | .reject => 0
  | .sane => 1
  | .correct => 2
  | .selcand => 3
  | .synccand => 4
  | .excess => 5
  | .syspeer => 6
  | .pps => 7

/-- `score`: increasing values are more cherished. -/
def score (p : Peer α) : Nat :=
  (if p.flash.test10 then 0 else 1) + (if p.flash.test13 then 0 else 1)
    + (if p.flash.test12 then 0 else 1) + (if p.flash.test11 then 0 else 1)
    + (if p.status.rank ≥ SelStatus.selcand.rank then 1 else 0)
    + (if p.status ≠ .excess then 1 else 0)

/-- `score_all` returns nonzero: the association has the lowest score of the preemptible ones. -/
def scoreAll (s : Sys α) (p : Peer α) : Bool :=
  let temp := (s.peer_list.filter (fun q => q.flags.preempt)).foldl (fun t q => min t (score q)) 100
  score p == temp && temp != 0

end NtpSuite
