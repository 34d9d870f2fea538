import NtpSuite.Core.Assoc

/-!
# The Poll Process

The procedures that decide when an association sends next, and the sending
itself: `poll_update`, `peer_clear`, `peer_xmit` and the unicast part of
`transmit`, with `peer_unfit` and `root_distance`, which `peer_clear` and
`transmit` consult.

All of them act on one association. `transmit` calls the clock filter in its
middle, and the clock filter runs the selection over every association, so
the procedure is cut there: `transmitReach` is what comes before the call
and `transmitSend` what comes after. The daemon model puts the filter back
in between.

A shift `1 << n` is a power of two here. The source computes it in an `int`,
which is defined only up to `n = 30`; whether the exponents stay in that
range is a property to prove, not one to assume.

## Main definitions

* `pollUpdate`: Clamp the poll exponent and reschedule.
* `peerUnfit`: The fitness tests of the selection.
* `peerClear`: Reset an association.
* `peerXmit`: Send a packet for an association.
* `transmitReach`, `transmitSend`: The two halves of `transmit`.
* `timerPeer`: What the one-second timer does to an association it does not
  yet have to poll.
-/

namespace NtpSuite

variable {α : Type} [Field α] [LinearOrder α]

def MAXDISPERSE : α := 16

/-- `1 << n` for an `int`. -/
def shl1 (n : Nat) : Int := 2 ^ n

/-- `LOGTOD`, `ULOGTOD`: a power of two as a double. -/
def logToD (n : Int) : α := (2 : α) ^ n

def CTL_PEER_MAXEVENTS : Nat := 15
def PEVNT_UNREACH : Nat := 3
def PEVNT_REACH : Nat := 4
def PEVNT_RESTART : Nat := 5
def PEVNT_RATE : Nat := 7
def PEVNT_AUTH : Nat := 12
def PEVNT_XLEAVE : Nat := 14
def PEVNT_XERR : Nat := 15

/-- The number of events so far; an event of the same kind starts over. -/
def eventCount (err : Nat) (p : Peer α) : Nat :=
  if p.last_event = err then 0 else p.num_events

/-- `report_event` for an association, as far as the association sees it. -/
def reportEvent (err : Nat) (p : Peer α) : Peer α :=
  { p with
    last_event := if eventCount err p ≥ CTL_PEER_MAXEVENTS then p.last_event else err
    num_events := if eventCount err p ≥ CTL_PEER_MAXEVENTS then eventCount err p
      else eventCount err p + 1 }

/-- `key_expire`: purge the key list. Of the list itself only the mark that
    it was just made is kept. -/
def keyExpire (p : Peer α) : Peer α :=
  { p with flags := { p.flags with assoc := false } }

/-- The poll exponent `poll_update` settles on. -/
def clampPoll (p : Peer α) (mpoll : Nat) : Nat :=
  max (min p.maxpoll mpoll) p.minpoll

/-- `utemp`, the earliest time at which the next packet may go. -/
def earliest (c : Cfg α) (now : Nat) (p : Peer α) : Nat :=
  ((now : Int) + max (p.throttle - ((NTP_SHIFT : Int) - 1) * shl1 p.minpoll) c.ntp_minpkt).toNat

/-- The scheduled time of an association that is neither in a burst nor has
    an Autokey response waiting. -/
def nextPoll (c : Cfg α) (rnd : Nat) (p : Peer α) : Nat :=
  let hpoll :=
    -- While a server is being tried the shortest interval is used.
    if p.retry > 0 then p.minpoll
    else if p.reach = 0 then p.hpoll
    else min p.ppoll p.hpoll
  let next :=
    if c.refclock && p.flags.refclock then 2 ^ hpoll
    -- The interval is randomized by up to a sixteenth.
    else ((0x1000 ||| (rnd &&& 0xff)) <<< hpoll) % 2 ^ 64 / 2 ^ 12
  next + p.outdate

/-- The date `poll_update` sets, given the new poll exponent. In a burst a date in the future is
    kept. An Autokey response waiting to go is sent as soon as the rate control allows. Otherwise
    the next poll is scheduled, and delayed some more when the rate is high. -/
def pollDate (c : Cfg α) (now rnd : Nat) (p : Peer α) : Nat :=
  let utemp := earliest c now p
  if p.burst > 0 then
    if p.nextdate > now then p.nextdate
    else if c.refclock && p.flags.refclock then now + RESP_DELAY
    else utemp
  else if c.autokey && p.cmmd then
    if p.nextdate > now then
      -- Several responses may be waiting in the same interval.
      if (p.nextdate : Int) + c.ntp_minpkt ≠ utemp then utemp else p.nextdate
    else utemp
  else
    let nextdate := max (nextPoll c rnd p) utemp
    if p.throttle > shl1 p.minpoll then ((nextdate : Int) + c.ntp_minpkt).toNat else nextdate

/-- `poll_update`. A change of the interval makes the lifetimes in the key list bogus. -/
def pollUpdate (c : Cfg α) (now rnd : Nat) (p : Peer α) (mpoll : Nat) : Peer α :=
  let hpoll := clampPoll p mpoll
  let expired := c.autokey && p.flags.skey && hpoll != p.hpoll
  { p with
    hpoll := hpoll
    flags := if expired then (keyExpire p).flags else p.flags
    nextdate := pollDate c now rnd { p with hpoll := hpoll } }

/-- `root_distance`: the synchronization distance to the root. -/
def rootDistance (c : Cfg α) (now : Nat) (p : Peer α) : α :=
  let dtemp := (p.delay + p.rootdelay) / 2 + p.disp + p.rootdisp
    + c.clock_phi * ((now - p.update : Nat) : α) + p.jitter
  if dtemp < c.sys_mindisp then c.sys_mindisp else dtemp

/-- `local_refid`: the peer is synchronized to this host. -/
def localRefid (e : Env α) (p : Peer α) : Bool :=
  let unicast_ep := match p.dstadr with
    | some ep => if ep.mcastif then e.findinterface p.srcadr else some ep
    | none => e.findinterface p.srcadr
  match unicast_ep with
  | some ep => p.refid == ep.addr_refid
  | none => false

/-- The peer errors `peer_unfit` finds; the other bits are as they were. -/
def unfitBits (c : Cfg α) (e : Env α) (now : Nat) (p : Peer α) : Flash :=
  { p.flash with
    test10 := p.leap == .notinsync || decide ((p.stratum : Int) < c.sys_floor)
      || decide ((p.stratum : Int) ≥ c.sys_ceiling)
    test11 := !p.flags.refclock
      && decide (rootDistance c now p ≥ c.sys_maxdist + c.clock_phi * logToD p.hpoll)
    test12 := decide (p.stratum > 1) && localRefid e p
    test13 := decide (p.reach = 0) || p.flags.noselect }

/-- `peer_unfit` returns nonzero. -/
def peerUnfit (c : Cfg α) (e : Env α) (now : Nat) (p : Peer α) : Bool :=
  (unfitBits c e now p).peerTest

/-- The effect of a call of `peer_unfit` on the association. -/
def testFit (c : Cfg α) (e : Env α) (now : Nat) (p : Peer α) : Peer α :=
  { p with flash := unfitBits c e now p }

/-- The part of an association that `peer_clear` sets to zero. The Autokey
    variables belong to it only in a build that has them. -/
def clearToZero (c : Cfg α) (p : Peer α) : Peer α :=
  { p with
    toOnWire := {}
    toCrypto := if c.autokey then { keyid := p.keyid } else p.toCrypto
    toFilter := { update := p.update }
    burst := 0, retry := 0, reach := 0
    status := .reject, new_status := .reject, flash := {} }

/-- The time of the first poll of a cleared association. -/
def firstPoll (c : Cfg α) (now rnd : Nat) (initializing : Bool) (peer_associations : Int)
    (p : Peer α) : Nat :=
  if initializing then ((now : Int) + peer_associations).toNat
  else if p.hmode = .passive then ((now : Int) + c.ntp_minpkt).toNat
  else now + rnd % p.minpoll

/-- `peer_clear`. The fitness bits come from the association as it is after
    the zeroes and the poll exponents are in. -/
def peerClear (c : Cfg α) (e : Env α) (now rnd : Nat) (initializing : Bool)
    (peer_associations : Int) (ident : BitVec 32) (p : Peer α) : Peer α :=
  let q := { clearToZero c p with ppoll := p.maxpoll, hpoll := p.minpoll, disp := MAXDISPERSE }
  -- A clock keeps what its driver has set up.
  let isClock := c.refclock && p.flags.refclock
  { q with
    flags := if c.autokey then (keyExpire p).flags else p.flags
    flash := unfitBits c e now q
    jitter := logToD c.sys_precision
    flip := if p.flags.xleave then 1 else 0
    filter_order := Vector.ofFn (fun i => i.val)
    filter_disp := .replicate NTP_SHIFT MAXDISPERSE
    leap := if isClock then p.leap else .notinsync
    stratum := if isClock then p.stratum else STRATUM_UNSPEC
    refid := if isClock then p.refid else ident
    nextdate := firstPoll c now rnd initializing peer_associations p
    update := now
    outdate := now
    refresh := if c.autokey then now + 2 ^ 19 else p.refresh }

/-- The transmit timestamp of the packet `peer_xmit` builds. In basic mode,
    and for a broadcaster, it is the time of day; in interleaved symmetric
    modes it is the time the last packet really left. -/
def xpktXmt (e : Env α) (p : Peer α) : LFp :=
  if p.flip = 0 then e.xmt_tx
  else if p.hmode = .broadcast then e.xmt_tx
  else if p.flip > 0 then p.borg
  else p.aorg

/-- The a-priori timestamp of `peer_xmit`. -/
def stampOrg (e : Env α) (p : Peer α) : Peer α :=
  if p.flip = 0 then { p with aorg := e.xmt_tx } else p

/-- What `peer_xmit` does once the packet is on its way. -/
def afterSend (e : Env α) (p : Peer α) : Peer α :=
  let p := { p with sent := p.sent + 1, throttle := p.throttle + (shl1 p.minpoll - 2) }
  if p.flip = 0 then p
  -- The time the packet left goes out with the next one.
  else if p.flip > 0 then { p with aorg := e.xmt_ty, flip := -p.flip }
  else { p with borg := e.xmt_ty, flip := -p.flip }

/-- The packet is to carry a MAC. -/
def needsMac (c : Cfg α) (p : Peer α) : Bool := (c.autokey && p.flags.skey) || p.keyid != 0

/-- Autokey takes the next key of its list and sends off a waiting response. -/
def nextKey (c : Cfg α) (e : Env α) (p : Peer α) : Peer α :=
  if c.autokey && p.flags.skey then { p with keyid := e.xkeyid, cmmd := false } else p

/-- What `peer_xmit` does when the packet cannot be encrypted: the packet is
    dropped, but its timestamp has been stored. -/
def dropPacket (e : Env α) (p : Peer α) : Peer α :=
  let p := reportEvent PEVNT_AUTH (stampOrg e p)
  { p with flash := { p.flash with test5 := true }, badauth := p.badauth + 1 }

/-- `peer_xmit`: the association afterwards, and the transmit timestamp of
    the packet if one was sent. -/
def peerXmit (c : Cfg α) (e : Env α) (p : Peer α) : Peer α × Option LFp :=
  if p.dstadr = none then (p, none)
  -- The timestamp is stored before the MAC is computed.
  else if needsMac c p && e.authencrypt (nextKey c e p).keyid == 0 then
    (dropPacket e (nextKey c e p), none)
  else (afterSend e (stampOrg e (nextKey c e p)), some (xpktXmt e p))

/-- `transmit`, unicast modes, up to the call of the clock filter: shift the
    reachability register, or count down the burst. -/
def transmitReach (now : Nat) (p : Peer α) : Peer α :=
  if p.burst = 0 then
    { p with outdate := now, unreach := p.unreach + 1, reach := p.reach <<< 1 }
  else { p with burst := p.burst - 1 }

/-- The poll exponent and retry counter `transmit` chooses outside a burst.
    `p0` is the association before the reachability register was shifted. -/
def transmitPoll (c : Cfg α) (e : Env α) (now sys_poll : Nat) (p0 p : Peer α) : Peer α × Nat :=
  if p.reach = 0 then
    -- The server has just become unreachable.
    let q := if p0.reach ≠ 0 then reportEvent PEVNT_UNREACH (testFit c e now p) else p
    let q := if q.flags.iburst && q.retry == 0 then { q with retry := NTP_RETRY } else q
    (q, p0.hpoll)
  else
    -- The counter of a preemptible association is reset by the selection only.
    let q := if p.flags.preempt then p else { p with unreach := 0 }
    let q := if q.flags.burst && q.retry == 0 then
        let u := peerUnfit c e now q
        let q := testFit c e now q
        if u then q else { q with retry := NTP_RETRY }
      else q
    (q, sys_poll)

/-- Count down the retries. -/
def countRetry (p : Peer α) : Peer α :=
  if p.retry > 0 then { p with retry := p.retry - 1 } else p

/-- Send, unless the association is a broadcast client, which only listens. -/
def xmitUnlessListening (c : Cfg α) (e : Env α) (p : Peer α) : Peer α × Option LFp :=
  if p.hmode = .bclient then (p, none) else peerXmit c e p

/-- The end of `transmit`: count down the retries, send, and reschedule. -/
def transmitXmit (c : Cfg α) (e : Env α) (now hpoll : Nat) (p : Peer α) : Peer α × Option LFp :=
  let r := xmitUnlessListening c e (countRetry p)
  (pollUpdate c now (e.ntp_random 0) r.1 hpoll, r.2)

/-- `transmit`, unicast modes, after the call of the clock filter. `p0` is the association as
    `transmit` found it, `p` as the filter left it, and `excess` tells whether there are too many
    associations and `score_all` picks this one to be dropped. The result is `none` when the
    association is demobilized. -/
def transmitSend (c : Cfg α) (e : Env α) (now sys_poll : Nat) (excess : Peer α → Bool)
    (p0 p : Peer α) : Option (Peer α × Option LFp) :=
  if p0.burst = 0 then
    let r := transmitPoll c e now sys_poll p0 p
    -- Out of reach for long: give the server up, or ask it less often.
    if r.1.unreach ≥ NTP_UNREACH then
      if !(r.1.flags.config || r.1.flags.preempt) then none
      else if r.1.flags.preempt && excess r.1 then none
      else some (transmitXmit c e now ((r.2 + 1) % 256) r.1)
    else some (transmitXmit c e now r.2 r.1)
  else some (transmitXmit c e now p0.hpoll p)

/-- The timer's decrement of the rate control counter. -/
def timerPeer (p : Peer α) : Peer α :=
  if p.throttle > 0 then { p with throttle := p.throttle - 1 } else p

end NtpSuite
