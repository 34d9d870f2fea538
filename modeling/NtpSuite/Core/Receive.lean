import NtpSuite.Core.Filter

/-!
# The Receive Procedure

`receive`, from the datagram to the association it belongs to and on through
the peer process.

The procedure is one long function with some forty early returns. It is cut
where its own comments cut it: `admitPacket` for access control and version,
`parseExten` for the extension fields and the MAC, `limit` for rate control,
`authenticate` for the four outcomes of authentication, and `dispatch` for
the switch over the match code. A stage that returns early gives the state
`receive` ends in as an error of `Except`.

## Main definitions

* `receiveFront`: All stages before the switch.
* `dispatch`: The switch over the match code.
* `receiveMatched`: The rest, for the association the switch ends with.
* `receive`: The procedure.
-/

namespace NtpSuite

variable {α : Type} [Field α] [LinearOrder α]

def CRYPTO_ASSOC : BitVec 32 := 0x02010000
def CRYPTO_RESP : BitVec 32 := 0x80000000

/-- An `int` converted to `size_t`. -/
def sizeT (n : Int) : Nat := (n % 2 ^ 64).toNat

/-- A packet came in. -/
def countReceived (s : Sys α) : Sys α := { s with sys_received := s.sys_received + 1 }

/-- Count a packet by its version. -/
def countVersion (hisversion : Nat) (s : Sys α) : Sys α :=
  { s with
    sys_newversion := if hisversion = NTP_VERSION then s.sys_newversion + 1 else s.sys_newversion
    sys_oldversion := if hisversion = NTP_VERSION then s.sys_oldversion
      else s.sys_oldversion + 1 }

/-- `sys_badlength++`. -/
def badlength (s : Sys α) : Sys α := { s with sys_badlength := s.sys_badlength + 1 }

/-- `sys_badauth++`. -/
def unauthentic (s : Sys α) : Sys α := { s with sys_badauth := s.sys_badauth + 1 }

/-- `sys_limitrejected++`. -/
def limitrejected (s : Sys α) : Sys α := { s with sys_limitrejected := s.sys_limitrejected + 1 }

/-- `sys_declined++`. -/
def declined (s : Sys α) : Sys α := { s with sys_declined := s.sys_declined + 1 }

/-- `sys_restricted++`. -/
def restricted (s : Sys α) : Sys α := { s with sys_restricted := s.sys_restricted + 1 }

/-- The first checks: port, restrictions, queries, version and mode. The
    result is the packet mode, mode zero of the oldest version replaced. -/
def admitPacket (c : Cfg α) (e : Env α) (s : Sys α) (rb : RecvBuf) :
    Except (Sys α) (Sys α × PktMode) :=
  let s := countReceived s
  let mask := e.restrictions rb.recv_srcadr
  let hismode := rb.recv_pkt.mode
  let hisversion := rb.recv_pkt.version
  -- The port is looked at first: a bogus one is likely a clogging attack.
  if rb.recv_srcadr.port = 0 then .error (badlength s)
  else if mask.ignore then .error (restricted s)
  -- Queries go to their own handlers and never reach the protocol.
  else if hismode = .priv then
    if !c.ntp_mode7 || mask.noquery then .error (restricted s) else .error (s.log .processPrivate)
  else if hismode = .control then
    if mask.noquery then .error (restricted s) else .error (s.log .processControl)
  else if mask.dontserve then .error (restricted s)
  -- A flakeway loses one packet in ten.
  else if mask.flake ∧ e.ntp_random 5 * 10 < 0x7fffffff then .error (restricted s)
  else if hisversion ≠ NTP_VERSION ∧ (mask.version ∨ hisversion < NTP_OLDVERSION) then
    .error (badlength s)
  else
    let s := countVersion hisversion s
    -- The oldest version has no mode field: what it sends are requests.
    if hismode = .unspec then
      if hisversion = NTP_OLDVERSION then .ok (s, .client) else .error (badlength s)
    else .ok (s, hismode)

/-- The state of the loop over the extension fields. -/
structure Frame where
  authlen : Nat
  has_mac : Int
  skeyid : Nat := 0
  opcode : BitVec 32 := 0
  groupname : Option CStr := none
deriving DecidableEq, Repr

/-- Why the loop gives a packet up. -/
inductive FrameErr where
  | badlength | declined
deriving DecidableEq, Repr

/-- An octet of the buffer. -/
def RecvBuf.byte (rb : RecvBuf) (i : Nat) : BitVec 8 :=
  (rb.word (i / 4) >>> (24 - 8 * (i % 4))).setWidth 8

/-- The group name in a host name: what follows the first at sign. -/
def groupOf (hostname : CStr) : Option CStr :=
  match (hostname.takeWhile (· ≠ 0)).dropWhile (· ≠ 0x40) with
  | [] => none
  | _ :: grp => some grp

/-- The calling group of an extension field of length `len`. The length of
    the name is compared in `size_t`. -/
def extractGroup (c : Cfg α) (rb : RecvBuf) (f : Frame) (opcode : BitVec 32) (len : Nat) :
    Except FrameErr (Option CStr) :=
  if c.autokey ∧ opcode &&& 0x3fff0000 = CRYPTO_ASSOC ∧ c.sys_groupname.isSome then
    -- The name follows the five words of the field header.
    let hostlen := (rb.word (f.authlen / 4 + 4)).toNat
    if hostlen ≥ 257 ∨ hostlen > sizeT ((len : Int) - 20) then .error .badlength
    else match groupOf ((List.range hostlen).map (fun i => rb.byte (f.authlen + 20 + i))) with
      | some grp => .ok (some grp)
      | none => .error .declined
  else .ok f.groupname

/-- The loop over the extension fields. -/
def parseExten (c : Cfg α) (rb : RecvBuf) : Nat → Frame → Except FrameErr Frame
  | 0, _ => .error .badlength
  | fuel + 1, f =>
    if f.has_mac = 0 then .ok f
    else if f.has_mac % 4 ≠ 0 ∨ sizeT f.has_mac < MIN_MAC_LEN then .error .badlength
    -- What is left is no longer than a MAC, so it is one.
    else if sizeT f.has_mac ≤ MAX_MAC_LEN then
      .ok { f with skeyid := (rb.word (f.authlen / 4)).toNat }
    else
      let opcode := rb.word (f.authlen / 4)
      let len := (opcode &&& 0xffff).toNat
      -- The source takes the length from the low half of the first word.
      if len % 4 ≠ 0 ∨ len < 4 ∨ (len : Int) + f.authlen > rb.recv_length then .error .badlength
      else match extractGroup c rb f opcode len with
        | .error err => .error err
        | .ok grp => parseExten c rb fuel
          { f with
            authlen := f.authlen + len
            has_mac := f.has_mac - len
            opcode := opcode
            groupname := grp }

/-- The frame of a datagram. -/
def parseFrame (c : Cfg α) (rb : RecvBuf) : Except FrameErr Frame :=
  parseExten c rb (rb.recv_length.toNat + 1)
    { authlen := LEN_PKT_NOMAC, has_mac := rb.recv_length - LEN_PKT_NOMAC }

/-- Rate control. The result is the restrict mask of the packet. -/
def limit (e : Env α) (s : Sys α) (rb : RecvBuf) (hismode : PktMode) (f : Frame) :
    Except (Sys α) ResFlags :=
  let mask := e.restrictions rb.recv_srcadr
  if mask.donttrust ∧ f.has_mac = 0 then
    .error (restricted s)
  else
    -- From here on the mask is what the monitor has made of it.
    let mask := e.ntp_monitor mask
    if mask.limited then
      let s := limitrejected s
      -- A reply is never answered, not even with a kiss.
      if !mask.kod ∨ hismode = .broadcast ∨ hismode = .server then .error s
      else if hismode = .client then .error (s.log (.fastXmit .server f.skeyid))
      else .error (s.log (.fastXmit .active f.skeyid))
    else .ok { mask with kod := false }

/-- The digest of a Microsoft client that asks for a signed reply is zero. -/
def isZeroKey (rb : RecvBuf) (f : Frame) : Bool :=
  (List.range 4).all (fun i => rb.word (f.authlen / 4 + 1 + i) == 0)

/-- The packet is to be authenticated with a session key. -/
def usesSessionKey (c : Cfg α) (f : Frame) : Bool :=
  c.autokey && c.crypto_flags && decide (f.skeyid > NTP_MAXKEY)

/-- The cookie of the session key. -/
def cookie (e : Env α) (hismode : PktMode) (peer : Option (Peer α)) : Nat :=
  if hismode = .broadcast then 0
  else match peer with
    | none => e.session_key 0 e.sys_private
    | some p => p.pcookie

/-- The outcome of authentication, or the state `receive` returns in. -/
def authenticate (c : Cfg α) (e : Env α) (s : Sys α) (rb : RecvBuf) (hismode : PktMode)
    (mask : ResFlags) (f : Frame) (retcode : AM) : Except (Sys α) Auth :=
  if f.has_mac = 0 then .ok .none
  -- A key identifier with no digest is a crypto-NAK.
  else if f.has_mac = 4 then .ok .crypto
  -- The signing daemon will look at the packet; it is not checked here.
  else if c.signd ∧ f.has_mac = MAX_MD5_LEN ∧ mask.mssntp
      ∧ (retcode = .fxmit ∨ retcode = .newpass) ∧ isZeroKey rb f then .ok .none
  else if usesSessionKey c f ∧ sizeT f.has_mac < MAX_MD5_LEN then .error (unauthentic s)
  -- The session key depends on the address the packet was sent to, and
  -- a wildcard socket does not know it.
  else if usesSessionKey c f ∧ hismode = .broadcast ∧ rb.dstadr.wildcard then
    .error (restricted s)
  else if e.authdecrypt f.skeyid f.authlen f.has_mac.toNat then .ok .ok
  else .ok .error

/-- The packet as the later stages see it. -/
def mkRx (c : Cfg α) (e : Env α) (rb : RecvBuf) (hismode : PktMode) (mask : ResFlags) (f : Frame)
    (peer : Option (Peer α)) (y : Auth) : Rx :=
  let pkeyid := if usesSessionKey c f then cookie e hismode peer else 0
  { hismode := hismode
    hisversion := rb.recv_pkt.version
    hisleap := rb.recv_pkt.leap
    hisstratum := rb.recv_pkt.toStratum
    pkt := rb.recv_pkt
    recv_time := rb.recv_time
    restrict_mask := mask
    has_mac := f.has_mac ≠ 0
    is_authentic := y
    skeyid := f.skeyid
    opcode := f.opcode
    groupname := f.groupname
    pkeyid := pkeyid
    tkeyid := if usesSessionKey c f then e.session_key f.skeyid pkeyid else 0 }

/-- The counters of a packet given up while parsing. -/
def frameErr (s : Sys α) : FrameErr → Sys α
  | .badlength => badlength s
  | .declined => declined s

/-- Everything before the switch: the packet, the match code and the association found. -/
def receiveFront (c : Cfg α) (e : Env α) (s : Sys α) (rb : RecvBuf) :
    Except (Sys α) (Sys α × Rx × AM × Option (Peer α)) :=
  match admitPacket c e s rb with
  | .error s => .error s
  | .ok (s, hismode) =>
    match parseFrame c rb with
    | .error err => .error (frameErr s err)
    | .ok f =>
      match limit e s rb hismode f with
      | .error s => .error s
      | .ok mask =>
        -- The search comes before the digest, whose key may be that of the association.
        let m := findpeer s rb hismode
        match authenticate c e m.1 rb hismode mask f m.2.1 with
        | .error s => .error s
        | .ok y => .ok (m.1, mkRx c e rb hismode mask f m.2.2 y, m.2.1, m.2.2)

/-- `group_test`: the packet is from another group. -/
def groupTest (c : Cfg α) (grp ident : Option CStr) : Bool :=
  match grp with
  | none => false
  | some g =>
    !(c.sys_groupname == some g) && !(ident == some g)

/-- The sender is unsynchronized or its stratum out of range. -/
def noHelp (c : Cfg α) (rx : Rx) : Bool :=
  rx.hisleap == .notinsync || decide ((rx.hisstratum : Int) < c.sys_floor)
    || decide ((rx.hisstratum : Int) ≥ c.sys_ceiling)

/-- The sender is synchronized and its stratum out of range. -/
def outOfRange (c : Cfg α) (rx : Rx) : Bool :=
  rx.hisleap != .notinsync && (decide ((rx.hisstratum : Int) < c.sys_floor)
    || decide ((rx.hisstratum : Int) ≥ c.sys_ceiling))

/-- Authentication is required to mobilize an association. -/
def needsAuth (c : Cfg α) (rx : Rx) : Bool :=
  c.sys_authenticate || rx.restrict_mask.nopeer || rx.restrict_mask.donttrust

/-- The case `AM_FXMIT`: reply to a client without an association. -/
def caseFxmit (c : Cfg α) (s : Sys α) (rb : RecvBuf) (rx : Rx) : Sys α :=
  let ok := authOk rx.restrict_mask.donttrust rx.is_authentic
  -- A client request.
  if !rb.dstadr.mcastopen then
    if ok then s.log (.fastXmit .server rx.skeyid)
    else if rx.is_authentic = .error then
      unauthentic (s.log (.fastXmit .server 0))
    else restricted s
  -- A manycast solicitation is answered only if the answer can help.
  else if !c.sys_manycastserver then restricted s
  else if c.autokey ∧ groupTest c rx.groupname none then declined s
  else if s.sys_leap = .notinsync ∨ s.sys_stratum ≥ rx.hisstratum
      ∨ (!c.sys_cohort ∧ s.sys_stratum = rx.hisstratum + 1)
      ∨ rb.dstadr.addr_refid = rx.pkt.refid then declined s
  else if ok then s.log (.fastXmit .server rx.skeyid)
  else s

/-- The request of the case `AM_MANYCAST`. -/
def manycastRequest (c : Cfg α) (rb : RecvBuf) (rx : Rx) (p2 : Peer α) : NewPeer :=
  { srcadr := rb.recv_srcadr
    dstadr := some rb.dstadr
    hmode := .client
    version := rx.hisversion
    minpoll := p2.minpoll
    maxpoll := p2.maxpoll
    flags := { preempt := true, iburst := p2.flags.iburst }
    cast_flags := { ucast := true, uclnt := true }
    key := rx.skeyid
    ident := c.sys_ident }

/-- The case `AM_MANYCAST`: a server found by solicitation. -/
def caseManycast (c : Cfg α) (e : Env α) (s : Sys α) (rb : RecvBuf) (rx : Rx) : Sys α :=
  if c.autokey ∧ groupTest c rx.groupname none then declined s
  else match findmanycastpeer s rb with
    | none => restricted s
    | some p2 =>
      if !authOk ((!p2.cast_flags.pool && c.sys_authenticate) || rx.restrict_mask.nopeer
          || rx.restrict_mask.donttrust) rx.is_authentic then restricted s
      else if noHelp c rx then declined s
      else match newpeer c e s (manycastRequest c rb rx p2) with
        | (s, none) => declined s
        | (s, some _) =>
          -- A pool that has just got a server asks for the next one.
          if p2.cast_flags.pool then
            s.modifyPeer p2.ptr (fun p => { p with nextdate := s.current_time + 1 })
          else s

/-- The request of the case `AM_NEWBCL`, with or without the volley. -/
def newbclRequest (c : Cfg α) (rb : RecvBuf) (rx : Rx) (volley : Bool) : NewPeer :=
  { srcadr := rb.recv_srcadr
    dstadr := if rb.dstadr.mcastopen then none else some rb.dstadr
    hmode := if volley then .client else .bclient
    version := rx.hisversion
    minpoll := rx.pkt.ppoll.toNat
    maxpoll := rx.pkt.ppoll.toNat
    flags := if volley then { bc_vol := true, iburst := true, preempt := true }
      else { preempt := true }
    cast_flags := { bclnt := true }
    key := rx.skeyid
    ident := c.sys_ident }

/-- The packet carries an Autokey key identifier, with Autokey configured. -/
def isAutokey (c : Cfg α) (rx : Rx) : Bool :=
  c.autokey && c.crypto_flags && decide (rx.skeyid > NTP_MAXKEY)

/-- The case `AM_NEWBCL`: the first packet of a broadcast server. -/
def caseNewbcl (c : Cfg α) (e : Env α) (s : Sys α) (rb : RecvBuf) (rx : Rx) :
    Sys α × Option (Peer α) :=
  if c.autokey ∧ groupTest c rx.groupname c.sys_ident then (declined s, none)
  else if !c.sys_bclient then (restricted s, none)
  else if !authOk (needsAuth c rx) rx.is_authentic then (restricted s, none)
  else if noHelp c rx then (declined s, none)
  -- Autokey starts with the response that carries the association.
  else if isAutokey c rx ∧ rx.opcode &&& 0xffff0000 ≠ CRYPTO_ASSOC ||| CRYPTO_RESP then
    (declined s, none)
  -- The delay is known, so no volley is needed to measure it.
  else if c.sys_bdelay ≠ 0 then
    if isAutokey c rx then (restricted s, none)
    else match newpeer c e s (newbclRequest c rb rx false) with
      | (s, none) => (restricted s, none)
      | (s, some p) =>
        let p := { p with delay := c.sys_bdelay }
        (s.setPeer p, some p)
  -- Start a volley in client mode. The packet itself is not processed.
  else match newpeer c e s (newbclRequest c rb rx true) with
    | (s, none) => (restricted s, none)
    | (s, some p) =>
      if c.autokey ∧ rx.skeyid > NTP_MAXKEY then
        let r := e.crypto_recv p
        (s.setPeer { p with
          toCrypto := r.crypto
          flash := { p.flash with test8 := p.flash.test8 && !r.clears8 } }, none)
      else (s, none)

/-- The request of the case `AM_NEWPASS`. -/
def newpassRequest (c : Cfg α) (rb : RecvBuf) (rx : Rx) : NewPeer :=
  { srcadr := rb.recv_srcadr
    dstadr := some rb.dstadr
    hmode := .passive
    version := rx.hisversion
    minpoll := rx.pkt.ppoll.toNat
    maxpoll := NTP_MAXDPOLL
    flags := {}
    cast_flags := { ucast := true }
    key := rx.skeyid
    ident := c.sys_ident }

/-- The end of the case `AM_NEWPASS`: mobilize a symmetric passive association. -/
def mobilizePassive (c : Cfg α) (e : Env α) (s : Sys α) (rb : RecvBuf) (rx : Rx) :
    Sys α × Option (Peer α) :=
  if outOfRange c rx then (declined s, none)
  else match newpeer c e s (newpassRequest c rb rx) with
    | (s, none) => (declined s, none)
    | (s, some p) => (s, some p)

/-- The case `AM_NEWPASS`: the first packet of a symmetric active peer. When authentication fails
    outright the source sends a crypto-NAK, if the digest was wrong, and does not return. -/
def caseNewpass (c : Cfg α) (e : Env α) (s : Sys α) (rb : RecvBuf) (rx : Rx) :
    Sys α × Option (Peer α) :=
  if c.autokey ∧ groupTest c rx.groupname c.sys_ident then (declined s, none)
  else if !authOk (needsAuth c rx) rx.is_authentic then
    -- The sender may be served, but not as a peer.
    if authOk rx.restrict_mask.donttrust rx.is_authentic then
      (s.log (.fastXmit .passive rx.skeyid), none)
    else if rx.is_authentic = .error then
      -- The source goes on from here to the checks of the good case.
      mobilizePassive c e (restricted (s.log (.fastXmit .active 0))) rb rx
    else mobilizePassive c e s rb rx
  else mobilizePassive c e s rb rx

/-- The switch over the match code. The result is the association to go on
    with, if `receive` does not return. -/
def dispatch (c : Cfg α) (e : Env α) (s : Sys α) (rb : RecvBuf) (rx : Rx) (retcode : AM)
    (peer : Option (Peer α)) : Sys α × Option (Peer α) :=
  match retcode with
  | .fxmit => (caseFxmit c s rb rx, none)
  | .manycast => (caseManycast c e s rb rx, none)
  | .newbcl => caseNewbcl c e s rb rx
  | .newpass => caseNewpass c e s rb rx
  | .procpkt =>
    match peer with
    | some p => if c.autokey ∧ groupTest c rx.groupname p.ident then (declined s, none)
      else (s, some p)
    | none => (s, none)
  | .err => (declined s, none)
  | .nomatch => (declined s, none)

/-- `sys_processed++`. -/
def countProcessed (s : Sys α) : Sys α := { s with sys_processed := s.sys_processed + 1 }

/-- `process_packet` in the daemon. -/
def processPacketSys (c : Cfg α) (e : Env α) (s : Sys α) (pkt : Pkt) (p : Peer α) : Sys α :=
  let s := countProcessed s
  match processPacket c e s.current_time pkt p with
  | (q, none) => s.setPeer q
  | (q, some x) =>
    (clockFilter c e (s.setPeer q) x q).modifyPeer q.ptr (finishVolley c e s.current_time)

/-- A peer whose packet fails authentication in symmetric modes is sent a crypto-NAK. -/
def nakReply (rx : Rx) (p : Peer α) : Bool :=
  rx.is_authentic != .crypto && badDigest rx && (rx.hismode == .active || rx.hismode == .passive)
    && match timestampTests rx p with
      | .process _ => true
      | _ => false

/-- `receive` for the association the switch ends with. -/
def receiveMatched (c : Cfg α) (e : Env α) (s : Sys α) (rx : Rx) (p : Peer α) : Sys α :=
  if wrongKeyKind c rx p then unauthentic s
  else
    -- The source sends the crypto-NAK while it notes the failure; what it sends
    -- does not depend on the association, so the order does not matter.
    let s := if nakReply rx p then s.log (.fastXmit .active 0) else s
    match receivePeer c e s rx p with
    | .done q => s.setPeer q
    | .gone q => unpeer (s.setPeer q) q.ptr
    | .process q =>
      (processPacketSys c e (s.setPeer q) rx.pkt q).modifyPeer q.ptr
        (interleave s.current_time rx)

/-- `receive`. -/
def receive (c : Cfg α) (e : Env α) (s : Sys α) (rb : RecvBuf) : Sys α :=
  match receiveFront c e s rb with
  | .error s => s
  | .ok (s, rx, retcode, peer) =>
    match dispatch c e s rb rx retcode peer with
    | (s, none) => s
    | (s, some p) => receiveMatched c e s rx p

end NtpSuite
