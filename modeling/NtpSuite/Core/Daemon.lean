import NtpSuite.Core.Receive

/-!
# The Daemon

The event loop: configuration adds associations, packets arrive, the timer
ticks once a second, and other parts of the daemon clear or reschedule an
association. An event is handled to its end before the next one is taken.

Every event comes with an `Env`, what the procedures learn from outside
while they handle it, so a run is a list of pairs. Nothing is assumed about
the environments of different events.

## Main definitions

* `transmit`: The poll process of one association.
* `timer`: The one-second timer.
* `Event`, `step`: The events and what they do.
-/

namespace NtpSuite

variable {α : Type} [Field α] [LinearOrder α]

/-- `peer_xmit` in the daemon. What the caller does to the association afterwards is `g`. -/
def xmitPeer (c : Cfg α) (e : Env α) (s : Sys α) (p : Peer α) (g : Peer α → Peer α) : Sys α :=
  let r := peerXmit c e p
  let s := s.setPeer (g r.1)
  match r.2 with
  | some xmt => s.log (.sendpkt p.ptr xmt)
  | none => s

/-- `pool_xmit`: send a solicitation if an address is at hand. -/
def poolXmit (e : Env α) (p : Peer α) : Peer α :=
  if e.pool_addr then
    { p with
      aorg := e.xmt_tx
      sent := p.sent + 1
      throttle := p.throttle + (shl1 p.minpoll - 2) }
  else p

/-- `transmit` for a broadcast server. -/
def transmitBroadcast (c : Cfg α) (e : Env α) (s : Sys α) (p : Peer α) : Sys α :=
  let hpoll := p.hpoll
  let poll (q : Peer α) := pollUpdate c s.current_time (e.ntp_random 0) q hpoll
  let p := { p with outdate := s.current_time }
  if s.sys_leap ≠ .notinsync then xmitPeer c e s p poll else s.setPeer (poll p)

/-- `transmit` for a manycast client. -/
def transmitManycast (c : Cfg α) (e : Env α) (s : Sys α) (p : Peer α) : Sys α :=
  let hpoll := p.hpoll
  let finish (q : Peer α) :=
    pollUpdate c s.current_time (e.ntp_random 0) { q with unreach := q.unreach + 1 } hpoll
  let p := { p with outdate := s.current_time }
  -- Time for a new round of expanding rings.
  if p.unreach > c.sys_beacon then xmitPeer c e s { p with unreach := 0, ttl := 0 } finish
  else if s.sys_survivors < c.sys_minclock ∨ s.peer_associations < c.sys_maxclock then
    xmitPeer c e s { p with ttl := if p.ttl < c.sys_ttlmax then p.ttl + 1 else p.ttl } finish
  else s.setPeer (finish p)

/-- `transmit` for a pool. -/
def transmitPool (c : Cfg α) (e : Env α) (s : Sys α) (p : Peer α) : Sys α :=
  let hpoll := p.hpoll
  let p := { p with outdate := s.current_time }
  let p := if s.peer_associations ≤ 2 * c.sys_maxclock
      ∧ (s.peer_associations < c.sys_maxclock ∨ s.sys_survivors < c.sys_minclock) then
      poolXmit e p
    else p
  s.setPeer (pollUpdate c s.current_time (e.ntp_random 0) p hpoll)

/-- The last packet of a burst in ntpdate mode: when every association has
    been tried the daemon gives up. -/
def burstDone (c : Cfg α) (s : Sys α) (p0 p : Peer α) : Sys α :=
  if p0.burst ≠ 0 ∧ p.burst = 0 ∧ c.mode_ntpdate then
    { s with
      peer_ntpdate := s.peer_ntpdate - 1
      exited := s.exited || decide (s.peer_ntpdate = 1) }
  else s

/-- There are too many associations and this is the least cherished one. -/
def isExcess (c : Cfg α) (s : Sys α) (p : Peer α) : Bool :=
  decide (s.peer_associations > c.sys_maxclock) && scoreAll (s.setPeer p) p

/-- `transmit` for unicast modes. -/
def transmitUnicast (c : Cfg α) (e : Env α) (s : Sys α) (p0 : Peer α) : Sys α :=
  let p := transmitReach s.current_time p0
  let s := burstDone c (s.setPeer p) p0 p
  -- A server out of reach is fed a sample with no information.
  let s := if p0.burst = 0 ∧ p.reach = 0 then clockFilter c e s ⟨0, 0, MAXDISPERSE⟩ p else s
  match transmitSend c e s.current_time s.sys_poll (isExcess c s) p0 (s.reload p) with
  | none => unpeer s p.ptr
  | some (q, none) => s.setPeer q
  | some (q, some xmt) => (s.setPeer q).log (.sendpkt q.ptr xmt)

/-- `transmit`. -/
def transmit (c : Cfg α) (e : Env α) (s : Sys α) (p : Peer α) : Sys α :=
  if p.cast_flags.bcast || p.cast_flags.mcast then transmitBroadcast c e s p
  else if p.cast_flags.acast then transmitManycast c e s p
  else if p.cast_flags.pool then transmitPool c e s p
  else transmitUnicast c e s p

def NSTAGE : Int := 5

/-- The reachability of a reference clock, after the clock filter has seen the shifted register. -/
def refclockReach (now : Nat) (oreach : BitVec 8) (p : Peer α) : Peer α :=
  let p := { p with outdate := now }
  if p.reach = 0 then
    if oreach = 0 then p else { reportEvent PEVNT_UNREACH p with timereachable := now }
  else if p.flags.burst then { p with burst := NSTAGE }
  else p

/-- `refclock_transmit`, the call of the driver left out. -/
def refclockTransmit (c : Cfg α) (e : Env α) (s : Sys α) (p : Peer α) : Sys α :=
  let poll (q : Peer α) := pollUpdate c s.current_time (e.ntp_random 0) q q.hpoll
  let q := { p with sent := p.sent + 1, xmt := e.xmt_tx }
  if p.burst = 0 then
    let q := { q with reach := p.reach <<< 1 }
    let s := s.setPeer q
    -- The clock has missed four polls.
    let s := if q.reach &&& 0x0f = 0 then clockFilter c e s ⟨0, 0, MAXDISPERSE⟩ q else s
    s.modifyPeer p.ptr (fun q => poll (refclockReach s.current_time (p.reach &&& 0xfe) q))
  else s.setPeer (poll { q with burst := p.burst - 1 })

/-- The timer's turn for one association. -/
def timerTurn (c : Cfg α) (e : Env α) (s : Sys α) (ptr : Nat) : Sys α :=
  let s := s.modifyPeer ptr timerPeer
  -- An earlier turn may have demobilized the association.
  match s.peer? ptr with
  | none => s
  | some p =>
    if p.nextdate ≤ s.current_time then
      if c.refclock && p.flags.refclock then refclockTransmit c e s p else transmit c e s p
    else s

/-- Orphan mode: a daemon with no source serves its own time. -/
def orphanMode (c : Cfg α) (s : Sys α) : Sys α :=
  if c.sys_orphan < STRATUM_UNSPEC ∧ s.sys_peer = none ∧ s.current_time > s.orphwait then
    { s with
      sys_leap := if s.sys_leap = .notinsync then .nowarning else s.sys_leap
      sys_stratum := c.sys_orphan.toNat
      sys_refid := if c.sys_orphan > 1 then 0x7f000001 else 0x4c4f4f50
      sys_offset := 0
      sys_rootdelay := 0
      sys_rootdisp := 0 }
  else s

/-- `timer`, as far as it concerns associations. -/
def timer (c : Cfg α) (e : Env α) (s : Sys α) : Sys α :=
  let s := { s with current_time := s.current_time + 1 }
  orphanMode c ((s.peer_list.map Peer.ptr).foldl (timerTurn c e) s)

/-- A poll range as the configuration parser lets it through: zero stands
    for an option that is not given. -/
structure ConfPoll where
  minpoll : Nat
  maxpoll : Nat
  minpoll_ok : minpoll = 0 ∨ (NTP_MINPOLL ≤ minpoll ∧ minpoll ≤ 255)
  maxpoll_ok : maxpoll ≤ NTP_MAXPOLL

/-- What can happen to the daemon. -/
inductive Event where
  | config (a : NewPeer) (r : ConfPoll)
  | packet (rb : RecvBuf)
  | tick
  | clear (ptr : Nat) (ident : BitVec 32)
  | poll (ptr : Nat) (mpoll : Nat)

/-- One event. A daemon that has left does nothing more. -/
def step (c : Cfg α) (s : Sys α) (x : Env α × Event) : Sys α :=
  if s.exited then s
  else match x.2 with
  | .config a r => (peerConfig c x.1 s { a with minpoll := r.minpoll, maxpoll := r.maxpoll }).1
  | .packet rb => receive c x.1 s rb
  | .tick => timer c x.1 s
  | .clear ptr ident => s.modifyPeer ptr (peerClear c x.1 s.current_time (x.1.ntp_random 6)
      s.initializing s.peer_associations ident)
  | .poll ptr mpoll => s.modifyPeer ptr (fun p =>
    pollUpdate c s.current_time (x.1.ntp_random 7) p mpoll)

end NtpSuite
