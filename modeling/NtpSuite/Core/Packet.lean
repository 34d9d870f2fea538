import NtpSuite.Core.Poll

/-!
# The Peer Process

What `receive` does with a packet once the association it belongs to is
known, and `process_packet`. Like the poll process, these procedures act on
one association.

The path of a packet is a fixed sequence of stages, and each stage is a
definition of its own: the timestamp tests, the update of the on-wire state
variables, the authentication verdict, the kiss-o'-death, the Autokey
exchange and the packet procedure. A stage either hands the association on
or ends the packet, and `Verdict` says which. Two orders matter and are kept
as the source has them: the state variables are written before the
authentication verdict is looked at, and the header variables are captured
before the packet is tested.

`Verdict.process` stops short of the clock filter, which runs the selection
over all associations; the daemon model picks the packet up from there.

## Main definitions

* `Auth`, `authOk`: Authentication outcomes and the macro that filters them.
* `Rx`: What `receive` knows of a packet.
* `timestampTests`, `updateState`: The on-wire protocol.
* `badAuth`: What follows a failed authentication.
* `kissRate`: The response to a rate kiss.
* `autokeyDance`: The Autokey stage.
* `receivePeer`: All stages in order.
* `processPacket`: The packet procedure, up to the clock filter.
* `interleave`: The state update of interleaved modes.
-/

namespace NtpSuite

variable {α : Type} [Field α] [LinearOrder α]

/-- The four outcomes of authentication. -/
inductive Auth where
  | none | ok | error | crypto
deriving DecidableEq, Repr

/-- The macro `AUTH`: if `x` authentication is required, else optional. -/
def authOk (x : Bool) (y : Auth) : Bool :=
  if x then y == .ok else y == .ok || y == .none

/-- A packet on its way through `receive`: the header fields it took out,
    the restrictions on its sender, the outcome of authentication, the key
    identifiers, and what was found in the extension fields. -/
structure Rx where
  hismode : PktMode
  hisversion : Nat
  hisleap : Leap
  hisstratum : Nat
  pkt : Pkt
  recv_time : LFp
  restrict_mask : ResFlags
  has_mac : Bool
  is_authentic : Auth
  skeyid : Nat
  opcode : BitVec 32
  groupname : Option CStr
  tkeyid : Nat
  pkeyid : Nat
deriving DecidableEq, Repr

/-- How a stage ends: the association is kept and the packet done with, the
    association is demobilized, or the packet goes on. -/
inductive Verdict (α : Type) [Zero α] where
  | done (p : Peer α)
  | gone (p : Peer α)
  | process (p : Peer α)

/-- Count the packet and put out the flashers of the last one. A bogus packet
    of interleaved mode is held against the next one. -/
def countPacket (p : Peer α) : Peer α :=
  { p with
    received := p.received + 1
    flags := { p.flags with xbogus := false }
    flash := { p.flash.clearPkt with test3 := p.flags.xbogus } }

/-- The check for a bogus packet in basic mode. The stored origin timestamp
    is cleared when it is matched. -/
def basicTest (rx : Rx) (p : Peer α) : Peer α :=
  if rx.pkt.org ≠ p.aorg then
    let p := { p with bogusorg := p.bogusorg + 1, flash := { p.flash with test2 := true } }
    -- The other end answers the last packet but one: it is in interleaved mode.
    if p.dst ≠ 0 ∧ rx.pkt.org = p.dst then reportEvent PEVNT_XLEAVE { p with flip := 1 } else p
  else { p with aorg := 0 }

/-- The checks of interleaved symmetric mode. -/
def interleavedTest (rx : Rx) (p : Peer α) : Peer α :=
  if rx.pkt.org = 0 ∨ rx.pkt.rec_ = 0 ∨ p.dst = 0 then
    { p with flash := { p.flash with test3 := true } }
  else if p.dst ≠ 0 ∧ rx.pkt.org ≠ p.dst then
    { p with
      bogusorg := p.bogusorg + 1
      flags := { p.flags with xbogus := true }
      flash := { p.flash with test2 := true } }
  else p

/-- The schedule of timestamp checks. The packet ends here if it is a
    duplicate or starts interleaved broadcast mode. -/
def timestampTests (rx : Rx) (p : Peer α) : Verdict α :=
  let p := countPacket p
  -- No time was set. The packet is marked but not dropped here.
  if rx.pkt.xmt = 0 then .process { p with flash := { p.flash with test3 := true } }
  else if p.xmt = rx.pkt.xmt then
    .done { p with oldpkt := p.oldpkt + 1, flash := { p.flash with test1 := true } }
  else if rx.hismode = .broadcast then
    -- A broadcast with an origin timestamp comes from an interleaved server.
    if rx.pkt.org ≠ 0 ∧ !p.flags.xb then
      .done (reportEvent PEVNT_XLEAVE { p with
        flags := { p.flags with xb := true }, aorg := rx.pkt.xmt, borg := rx.recv_time })
    else .process p
  else if p.flip = 0 then .process (basicTest rx p)
  else .process (interleavedTest rx p)

/-- Update the state variables. -/
def updateState (rx : Rx) (p : Peer α) : Peer α :=
  { p with
    rec_ := if p.flip = 0 ∧ rx.hismode ≠ .broadcast then rx.pkt.xmt else p.rec_
    dst := if p.flip = 0 then rx.recv_time else p.dst
    xmt := rx.pkt.xmt }

/-- Note that authentication has failed. -/
def authFailed (p : Peer α) : Peer α :=
  { reportEvent PEVNT_AUTH p with
    flash := { p.flash with test5 := true }
    badauth := p.badauth + 1 }

/-- What follows a crypto-NAK or a failed digest. -/
def badAuth (c : Cfg α) (e : Env α) (s : Sys α) (p : Peer α) : Verdict α :=
  if p.flags.preempt then .gone (authFailed p)
  -- Only an Autokey association is restarted.
  else if c.autokey && p.crypto != 0 then
    .done (peerClear c e s.current_time (e.ntp_random 0) s.initializing s.peer_associations
      0x41555448 (authFailed p))
  else .done (authFailed p)

/-- The packet is a rate kiss. -/
def isKissRate (rx : Rx) : Bool :=
  rx.hismode == .server && rx.hisleap == .notinsync && rx.hisstratum == STRATUM_UNSPEC
    && rx.pkt.refid == KISS_RATE

/-- `peer->ppoll = max(peer->minpoll, pkt->ppoll)`. -/
def setPpoll (rx : Rx) (p : Peer α) : Peer α :=
  { p with ppoll := max p.minpoll rx.pkt.ppoll.toNat }

/-- `minpoll` after a rate kiss: the poll exponent of the packet, if that is more. -/
def kissMinpoll (rx : Rx) (p : Peer α) : Nat :=
  if rx.pkt.ppoll.toNat > p.minpoll then p.ppoll else p.minpoll

/-- The response to a rate kiss: raise `minpoll`, drop any burst and fill the
    rate control counter. -/
def kissRate (c : Cfg α) (e : Env α) (now : Nat) (rx : Rx) (p : Peer α) : Peer α :=
  let p := reportEvent PEVNT_RATE { p with selbroken := p.selbroken + 1 }
  pollUpdate c now (e.ntp_random 0)
    { p with
      minpoll := kissMinpoll rx p
      burst := 0
      retry := 0
      throttle := ((NTP_SHIFT : Int) + 1) * shl1 (kissMinpoll rx p) }
    rx.pkt.ppoll.toNat

def CRYPTO_FLAG_PROV : BitVec 32 := 0x0400
def CRYPTO_FLAG_AUTO : BitVec 32 := 0x1000
def CRYPTO_FLAG_ALL : BitVec 32 := 0x7f00

/-- The search for the last key seen among the hashes of the current one.
    The result is the number of hashes it took, or `none` if they ran out. -/
def autokeyScan (e : Env α) (rx : Rx) (pkeyid : Nat) (ap : Autokey) :
    Nat → Nat → Nat → Option Nat
  | 0, _, _ => none
  | fuel + 1, i, tkeyid =>
    if tkeyid = pkeyid ∨ tkeyid = ap.key then some i
    else if (i : Int) > ap.seq then none
    else autokeyScan e rx pkeyid ap fuel (i + 1) (e.session_key tkeyid rx.pkeyid)

/-- The check of the key sequence for packets without a signed field. -/
def autokeySequence (e : Env α) (rx : Rx) (ap : Autokey) (p : Peer α) : Peer α :=
  match autokeyScan e rx p.pkeyid ap (ap.seq.toNat + 2) 0 rx.tkeyid with
  | some i =>
    { p with
      flash := { p.flash with test8 := false }
      pkeyid := rx.skeyid
      recval := some { ap with seq := ap.seq - i } }
  | none => reportEvent PEVNT_AUTH { p with crypto := p.crypto &&& ~~~CRYPTO_FLAG_AUTO }

/-- Count down the autokey hashes and light the flasher that a verified signature puts out. -/
def autokeyEnter (p : Peer α) : Peer α :=
  { p with
    recval := p.recval.map (fun a => if a.seq > 0 then { a with seq := a.seq - 1 } else a)
    flash := { p.flash with test8 := true } }

/-- What `crypto_recv` leaves in the association. -/
def cryptoRecv (e : Env α) (p : Peer α) : Peer α :=
  { p with
    toCrypto := (e.crypto_recv p).crypto
    flash := { p.flash with test8 := p.flash.test8 && !(e.crypto_recv p).clears8 } }

/-- The checks of the key identifier of the packet. `ap` is the autokey values
    at the start of the stage. -/
def autokeyCheck (e : Env α) (rx : Rx) (ap : Option Autokey) (p : Peer α) : Peer α :=
  -- In client mode the response has the key of the request.
  if rx.hismode = .server then
    if rx.skeyid = p.keyid then { p with flash := { p.flash with test8 := false } } else p
  -- A signature was verified, so the key starts a new list.
  else if !p.flash.test8 then { p with pkeyid := rx.skeyid }
  else match ap, p.recval with
    | some _, some a => autokeySequence e rx a p
    | _, _ => p

/-- The identity of the server must have been proven. -/
def autokeyProven (p : Peer α) : Peer α :=
  { p with
    flash := { p.flash with
      test8 := p.flash.test8 || decide (p.crypto &&& CRYPTO_FLAG_PROV = 0) } }

/-- The Autokey stage, for associations that use it. -/
def autokeyDance (c : Cfg α) (e : Env α) (s : Sys α) (rx : Rx) (p : Peer α) : Verdict α :=
  let clear := peerClear c e s.current_time (e.ntp_random 0) s.initializing s.peer_associations
  if !(c.autokey && p.flags.skey) then .process p
  else
    let q := cryptoRecv e (autokeyEnter p)
    if !(e.crypto_recv (autokeyEnter p)).ok then
      -- A protocol error restarts the dance; anything else waits.
      if (e.crypto_recv (autokeyEnter p)).err then
        let r := clear 0x43525950 (reportEvent PEVNT_RESTART q)
        let r := { r with flash := { r.flash with test9 := true } }
        if r.flags.preempt then .gone r else .done r
      else .done q
    else
      let r := autokeyProven (autokeyCheck e rx p.recval { q with unreach := 0 })
      -- The keys have not been refreshed for too long.
      if s.current_time > r.refresh then .done (clear 0x54494d45 (reportEvent PEVNT_RESTART r))
      else .process r

/-- The packet carries a key identifier of the wrong kind for the
    association: symmetric where Autokey is used, or the other way round. -/
def wrongKeyKind (c : Cfg α) (rx : Rx) (p : Peer α) : Bool :=
  c.autokey && rx.is_authentic != .crypto
    && ((p.flags.skey && decide (rx.skeyid ≤ NTP_MAXKEY))
      || (!p.flags.skey && decide (rx.skeyid > NTP_MAXKEY)))

/-- The digest does not verify, or there is none where one is required. -/
def badDigest (rx : Rx) : Bool :=
  !authOk (rx.has_mac || rx.restrict_mask.donttrust) rx.is_authentic

/-- The stages after the state variables are updated: authentication
    verdict, kiss-o'-death, Autokey. -/
def receiveVerdict (c : Cfg α) (e : Env α) (s : Sys α) (rx : Rx) (p : Peer α) : Verdict α :=
  if rx.is_authentic = .crypto then badAuth c e s p
  else if badDigest rx then badAuth c e s p
  else
    -- From here on the packet is authentic, or nobody asked that it be.
    let p := setPpoll rx p
    if isKissRate rx then .done (kissRate c e s.current_time rx p)
    else
      let p := { p with
        timereceived := s.current_time
        flags := { p.flags with authentic := rx.is_authentic == .ok } }
      autokeyDance c e s rx p

/-- `receive` for a matched association, from the key identifier check to the packet procedure. -/
def receivePeer (c : Cfg α) (e : Env α) (s : Sys α) (rx : Rx) (p : Peer α) : Verdict α :=
  match timestampTests rx p with
  | .process p => receiveVerdict c e s rx (updateState rx p)
  | v => v

/-- `FPTOD` of an unsigned 16.16 number. -/
def fpToD (r : BitVec 32) : α := (r.toNat : α) / 65536

/-- `LFPTOD`: a timestamp difference as a signed number of seconds. -/
def lfpToD (v : LFp) : α := (v.toInt : α) / 4294967296

/-- Capture the header values in the association. -/
def captureHeader (pkt : Pkt) (p : Peer α) : Peer α :=
  { p with
    processed := p.processed + 1
    leap := pkt.leap
    stratum := min pkt.toStratum STRATUM_UNSPEC
    pmode := pkt.mode
    precision := pkt.precision
    rootdelay := fpToD pkt.rootdelay
    rootdisp := fpToD pkt.rootdisp
    refid := pkt.refid
    reftime := pkt.reftime }

/-- The number of packets left in a burst that a reply has enabled. -/
def burstLength (p : Peer α) : Int :=
  if p.reach ≠ 0 then min (shl1 (p.hpoll - p.minpoll)) NTP_SHIFT - 1 else NTP_IBURST - 1

/-- If either burst mode is armed, enable the burst. -/
def armBurst (now : Nat) (p : Peer α) : Peer α :=
  if p.retry > 0 then
    { p with
      retry := 0
      burst := burstLength p
      nextdate := if burstLength p > 0 then now else p.nextdate }
  else p

/-- Test 6: the server is not synchronized or its stratum out of range. -/
def badSync (c : Cfg α) (pkt : Pkt) : Bool :=
  pkt.leap == .notinsync || decide ((pkt.toStratum : Int) < c.sys_floor)
    || decide ((pkt.toStratum : Int) ≥ c.sys_ceiling)

/-- Test 7: the root distance in the header is not valid. -/
def badHeader (α : Type) [Field α] [LinearOrder α] (pkt : Pkt) : Bool :=
  decide ((fpToD pkt.rootdelay : α) / 2 + fpToD pkt.rootdisp ≥ MAXDISPERSE)

/-- Light the flashers of tests 6 and 7. -/
def headerTests (c : Cfg α) (pkt : Pkt) (p : Peer α) : Peer α :=
  { p with
    flash := { p.flash with
      test6 := p.flash.test6 || badSync c pkt
      test7 := p.flash.test7 || badHeader α pkt } }

/-- The beginning of `process_packet`, up to the test of the flashers. -/
def packetHeader (c : Cfg α) (e : Env α) (now : Nat) (pkt : Pkt) (p : Peer α) : Peer α :=
  let p := armBurst now (captureHeader pkt p)
  headerTests c pkt (pollUpdate c now (e.ntp_random 1) p p.hpoll)

/-- A clock sample: offset, delay and dispersion. -/
structure Sample (α : Type) where
  offset : α
  delay : α
  disp : α

/-- The offset and delay of a packet, and the association afterwards. There
    are three schemes: interleaved symmetric, broadcast, and basic. -/
def packetSample (pkt : Pkt) (p : Peer α) : Peer α × Option (α × α) :=
  if p.flip ≠ 0 then
    let t34 : α := lfpToD (pkt.xmt - p.dst)
    -- Which of the two saved timestamps is meant alternates with the phase.
    let t21 : α := lfpToD (pkt.rec_ - (if p.flip > 0 then p.borg else p.aorg))
    let p_del := t21 - t34
    if p_del < 0 ∨ p_del > 1 then (reportEvent PEVNT_XERR p, none)
    else (p, some ((t21 + t34) / 2, p_del))
  else if p.pmode = .broadcast then
    let t34 : α := lfpToD (pkt.org - p.aorg)
    let t21 : α := lfpToD (pkt.org - p.borg)
    let q := if p.flags.xb then { p with aorg := pkt.xmt, borg := p.dst } else p
    if p.flags.xb ∧ (t34 < 0 ∨ t34 > 1) then (reportEvent PEVNT_XERR q, none)
    else
      let p_offset : α := if p.flags.xb then t21 else lfpToD (pkt.xmt - p.dst)
      -- The volley is over: its offset and this one give the delay.
      let q := if q.flags.bc_vol then
          { q with
            flags := { q.flags with bc_vol := false }
            delay := |q.offset - p_offset| * 2 }
        else q
      (q, some (p_offset + q.delay / 2, q.delay))
  else
    let t34 : α := lfpToD (pkt.xmt - p.dst)
    let t21 : α := lfpToD (pkt.rec_ - pkt.org)
    (p, some ((t21 + t34) / 2, |t21 - t34|))

/-- Mark the association reachable, with an event if it was not. -/
def markReachable (now : Nat) (p : Peer α) : Peer α :=
  let p := if p.reach = 0 then { reportEvent PEVNT_REACH p with timereachable := now } else p
  { p with reach := p.reach ||| 1 }

/-- `process_packet`, up to the clock filter: the association, and the
    sample the filter is given. -/
def processPacket (c : Cfg α) (e : Env α) (now : Nat) (pkt : Pkt) (p : Peer α) :
    Peer α × Option (Sample α) :=
  let p := packetHeader c e now pkt p
  if p.flash.pktTest then ({ p with seldisptoolarge := p.seldisptoolarge + 1 }, none)
  else
    match packetSample pkt (markReachable now p) with
    | (p, none) => (p, none)
    | (p, some (p_offset, p_del)) =>
      -- The delay of a round trip is never less than the precision.
      let del := max p_del (logToD c.sys_precision)
      (p, some
        { offset := p_offset + p.bias
          delay := del
          disp := logToD c.sys_precision + logToD p.precision + c.clock_phi * del })

/-- The end of `process_packet`: a broadcast client that has measured its
    delay returns to listening. -/
def finishVolley (c : Cfg α) (e : Env α) (now : Nat) (p : Peer α) : Peer α :=
  if p.flags.bc_vol ∧ p.hmode = .client then
    let q := testFit c e now p
    if q.flash.test11 then q
    else if c.autokey && q.flags.skey then
      -- An Autokey client stays until all its exchanges are complete.
      if ~~~q.crypto &&& CRYPTO_FLAG_ALL = 0 then { q with hmode := .bclient } else q
    else { q with hmode := .bclient }
  else p

/-- The end of `receive`: in interleaved mode update the state variables and
    shift the transmit phase. -/
def interleave (now : Nat) (rx : Rx) (p : Peer α) : Peer α :=
  if p.flip ≠ 0 then
    let half := 2 ^ min p.ppoll p.hpoll / 2
    { p with
      rec_ := rx.pkt.rec_
      dst := rx.recv_time
      -- The difference is unsigned, so a date that has passed is far away.
      nextdate := if now ≤ p.nextdate ∧ p.nextdate - now < half then p.nextdate + 1
        else p.nextdate - 1 }
  else p

end NtpSuite
