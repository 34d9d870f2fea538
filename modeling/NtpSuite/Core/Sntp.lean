import NtpSuite.Core.Kod
import NtpSuite.Core.Packet

/-!
# The SNTP Client

The client that asks a few servers for the time once and leaves. It is driven
by callbacks: a name is resolved, the transmit timer fires, a socket becomes
readable or has been silent for too long. A callback runs to its end before
the next one.

A request is a structure that two lists point to: the list of expected senders
of its address family, and the queue of transmissions. `spkt` is the heap those
pointers go to. A structure is on its list from the moment the name is
resolved; the copy of the packet in it stays zero until the packet has been
sent.

What the client does that can be seen from outside is recorded in `trace`,
newest first. The sender in the records of `handlePkt` is that of the datagram;
the source hands on the address in its list instead, which is equal to it up to
the port.

## Main definitions

* `State`, `Opts`, `Env`: The client, its options, and what a callback learns.
* `sntpNameResolved`, `queueXmt`, `xmtTimerCb`, `xmt`: Asking.
* `processPkt`: The checks on a datagram.
* `handlePkt`, `sockCb`: Acting on it.
* `timeoutQueries`: Giving up.
* `Event`, `step`: The callbacks.
-/

namespace NtpSuite.Sntp

def JAN_1970 : Nat := 2208988800

/-- `struct timeval`. -/
structure Timeval where
  tv_sec : Int
  tv_usec : Nat
deriving DecidableEq, Repr

/-- `TVTOTS`: the fraction is rounded to the nearest. -/
def tvToTs (tv : Timeval) : LFp :=
  BitVec.ofInt 32 tv.tv_sec ++ BitVec.ofNat 32 ((tv.tv_usec * 2 ^ 32 + 500000) / 1000000)

/-- `struct dns_ctx`: the name looked up, and whether to send to it or to
    wait for its broadcasts. -/
structure DnsCtx where
  name : CStr
  ucst : Bool
deriving DecidableEq, Repr

/-- `struct sent_pkt_tag`. Of the packet sent the header is kept. -/
structure SentPkt where
  dctx : DnsCtx := { name := [], ucst := false }
  addr : SockAddr := {}
  stime : Int := 0
  done : Bool := false
  x_pkt : Pkt := {}
deriving DecidableEq, Repr

/-- `struct xmt_ctx_tag`. -/
structure XmtCtx where
  sched : Int
  spkt : Nat
deriving DecidableEq, Repr

/-- The options of the client, and how it writes an address. -/
structure Opts (α : Type) where
  authentication : Bool
  wait : Bool
  step : Bool
  slew : Bool
  steplimit : α
  response_timeout : Int
  ntpver : Nat
  ipv6_works : Bool
  pretend_time : Option Int
  stoa : SockAddr → CStr

/-- What a callback learns from outside: the time the event loop has cached and the time of day, the
    outcome of `sendto` and of setting the clock, and what the keys say about a packet. -/
structure Env where
  start_cb : Timeval
  tv_xmt : Timeval
  time : Nat
  sent : Bool
  get_key : Nat → Bool
  auth_md5 : Nat → Nat → Nat → Bool
  systime : Bool

/-- Calls worth recording. -/
inductive Call (α : Type) where
  | sendpkt (dest : SockAddr) (xmt : LFp)
  | offset (sender : SockAddr) (org : LFp) (offset : α)
  | addEntry (sender : SockAddr) (org : LFp) (type : BitVec 32)
  | setTime (offset : α)
deriving DecidableEq, Repr

/-- The variables of the client. -/
structure State (α : Type) where
  spkt : Nat → SentPkt := fun _ => {}
  alloc : Nat := 0
  v4_pkts_list : List Nat := []
  v6_pkts_list : List Nat := []
  xmt_q : List XmtCtx := []
  n_pending_dns : Int := 0
  n_pending_ntp : Nat := 0
  start_tv : Int := 0
  time_derived : Bool := false
  time_adjusted : Bool := false
  shutting_down : Bool := false
  exited : Bool := false
  kod_db : List KodEntry := []
  trace : List (Call α) := []

/-- Record a call. -/
def State.log {α : Type} (s : State α) (x : Call α) : State α := { s with trace := x :: s.trace }

/-- Write to a structure. -/
def State.modify {α : Type} (s : State α) (ptr : Nat) (f : SentPkt → SentPkt) : State α :=
  { s with spkt := Function.update s.spkt ptr (f (s.spkt ptr)) }

section Asking

variable {α : Type}

/-- `check_exit_conditions`. -/
def checkExitConditions (o : Opts α) (s : State α) : State α :=
  if (s.n_pending_ntp = 0 ∧ s.n_pending_dns = 0) ∨ (s.time_derived ∧ !o.wait) then
    { s with shutting_down := true }
  else s

/-- `dec_pending_ntp`. -/
def decPendingNtp (o : Opts α) (s : State α) : State α :=
  if s.n_pending_ntp > 0 then
    checkExitConditions o { s with n_pending_ntp := s.n_pending_ntp - 1 }
  else s

/-- `LINK_SORT_SLIST` on the queue: behind everything scheduled no later. -/
def linkSort (x : XmtCtx) : List XmtCtx → List XmtCtx
  | [] => [x]
  | y :: ys => if x.sched < y.sched then x :: y :: ys else y :: linkSort x ys

/-- The list of expected senders of a family. -/
def State.pktsList (s : State α) (v6 : Bool) : List Nat :=
  if v6 then s.v6_pkts_list else s.v4_pkts_list

/-- `queue_xmt`, with the structure it is given. An address that is listed
    already is not asked twice. -/
def queueXmt (o : Opts α) (e : Env) (s : State α) (spkt : SentPkt) (xmt_delay : Nat) : State α :=
  let v6 := spkt.addr.af == .inet6
  if (s.pktsList v6).any (fun ptr => spkt.addr.addrPortEq (s.spkt ptr).addr) then
    decPendingNtp o s
  else
    { s with
      spkt := Function.update s.spkt s.alloc spkt
      alloc := s.alloc + 1
      v4_pkts_list := if v6 then s.v4_pkts_list else s.alloc :: s.v4_pkts_list
      v6_pkts_list := if v6 then s.alloc :: s.v6_pkts_list else s.v6_pkts_list
      xmt_q := linkSort { sched := e.start_cb.tv_sec + 2 * xmt_delay, spkt := s.alloc } s.xmt_q }

/-- `check_kod`: there is a kiss on file for the address. -/
def checkKod (o : Opts α) (s : State α) (ai : SockAddr) : Bool :=
  !(searchEntry s.kod_db (o.stoa ai)).isEmpty

/-- Wait for an address, and ask it unless it is to broadcast. -/
def askAddr (o : Opts α) (e : Env) (dctx : DnsCtx) (s : State α) (ai : SockAddr)
    (xmt_delay : Nat) : State α :=
  let s := { s with n_pending_ntp := s.n_pending_ntp + 1 }
  if dctx.ucst then queueXmt o e s { dctx := dctx, addr := ai } xmt_delay else s

/-- One turn of the loop of `sntp_name_resolved`, with the delays of the two
    families. An address of neither family ends the program. -/
def resolveAddr (o : Opts α) (e : Env) (dctx : DnsCtx) (r : State α × Nat × Nat)
    (ai : SockAddr) : State α × Nat × Nat :=
  if r.1.exited then r
  -- An address that has sent a kiss is not asked again.
  else if checkKod o r.1 ai then r
  else match ai.af with
    | .inet => (askAddr o e dctx r.1 ai r.2.1, r.2.1 + 1, r.2.2)
    | .inet6 => if o.ipv6_works then (askAddr o e dctx r.1 ai r.2.2, r.2.1, r.2.2 + 1) else r
    | .unspec => ({ r.1 with exited := true }, r.2.1, r.2.2)

/-- `sntp_name_resolved`; the list is empty if the lookup failed. -/
def sntpNameResolved (o : Opts α) (e : Env) (s : State α) (dctx : DnsCtx)
    (addrs : List SockAddr) : State α :=
  let s := (addrs.foldl (resolveAddr o e dctx) (s, 0, 0)).1
  if s.exited then s
  else checkExitConditions o { s with n_pending_dns := s.n_pending_dns - 1 }

/-- `generate_pkt`, the MAC left out. -/
def generatePkt (o : Opts α) (tv_xmt : Timeval) : Pkt :=
  { li_vn_mode := BitVec.ofNat 8 (3 * 2 ^ 6 + (if o.ntpver > 7 then 4 else o.ntpver) * 2 ^ 3 + 3)
    stratum := 0
    ppoll := 8
    xmt := tvToTs tv_xmt }

/-- `xmt`. The packet is kept only if it was sent. -/
def xmt (o : Opts α) (e : Env) (s : State α) (ptr : Nat) : State α :=
  let x_pkt := generatePkt o { e.tv_xmt with tv_sec := e.tv_xmt.tv_sec + JAN_1970 }
  if e.sent then
    (s.modify ptr (fun k => { k with x_pkt := x_pkt, stime := e.tv_xmt.tv_sec })).log
      (.sendpkt (s.spkt ptr).addr x_pkt.xmt)
  else decPendingNtp o s

/-- `xmt_timer_cb`: send the first packet of the queue if it is due. -/
def xmtTimerCb (o : Opts α) (e : Env) (s : State α) : State α :=
  if s.shutting_down then s
  else match s.xmt_q with
    | [] => s
    | x :: q =>
      if x.sched ≤ e.start_cb.tv_sec then xmt o e { s with xmt_q := q } x.spkt else s

end Asking

section Answers

variable {α : Type}

/-- A datagram as it is read. -/
structure Datagram where
  sender : SockAddr
  pkt_len : Nat
  pkt : Pkt
  exten : List (BitVec 32)
deriving DecidableEq, Repr

/-- `process_pkt` returns one of these, or the length of the packet. -/
inductive PktVerdict where
  | serverUnuseable | packetUnuseable | serverAuthFail | kodDemobilize | kodRate
  | useable (pkt_len : Nat)
deriving DecidableEq, Repr

/-- `ntohl(rpkt->exten[i])`. -/
def Datagram.word (d : Datagram) (i : Nat) : BitVec 32 := d.exten.getD i 0

/-- The loop that skips past the extensions: the words left for a MAC, and the words used. The
    length of a field is in octets; the source converts it to words and adds one. Each turn uses at
    least five words, so there are fewer turns than words. -/
def skipExten (d : Datagram) : Nat → Nat → Nat → Option (Nat × Nat)
  | 0, exten_words, used => if exten_words > 6 then none else some (exten_words, used)
  | fuel + 1, exten_words, used =>
    if exten_words > 6 then
      let exten_len := ((d.word used &&& 0xffff).toNat + 7) / 4
      if exten_len > exten_words ∨ exten_len < 5 then none
      else skipExten d fuel (exten_words - exten_len) (used + exten_len)
    else some (exten_words, used)

/-- The packet is authentic, or is not, or nobody asked. `none` on the
    outside is a packet of an incredible length. -/
def checkMac (o : Opts α) (e : Env) (d : Datagram) : Option (Option Bool) :=
  let is_authentic := if o.authentication then some false else none
  if d.pkt_len < LEN_PKT_NOMAC ∨ d.pkt_len % 4 ≠ 0 then none
  else
    let exten_words := (d.pkt_len - LEN_PKT_NOMAC) / 4
    match skipExten d exten_words exten_words 0 with
    | none => none
    | some (words, used) =>
      -- No MAC, or a crypto-NAK, which the source only prints.
      if words = 0 ∨ words = 1 then some is_authentic
      else if words = 5 ∨ words = 6 then
        let key_id := (d.word used).toNat
        let mac_size := words * 4
        if e.get_key key_id then
          some (some (e.auth_md5 key_id (d.pkt_len - mac_size) (mac_size - 4)))
        else some is_authentic
      else none

def KISS_DENY : BitVec 32 := 0x44454e59
def KISS_RSTR : BitVec 32 := 0x52535452

/-- The kiss code of a packet with its stratum unspecified. The source first
    looks for the letter of an experimental code. -/
def kissVerdict (pkt : Pkt) : Option PktVerdict :=
  if pkt.stratum = 0 ∧ (pkt.refid >>> 24).setWidth 8 ≠ (0x58 : BitVec 8) then
    if pkt.refid = KISS_DENY then some .kodDemobilize
    else if pkt.refid = KISS_RSTR then some .kodDemobilize
    else if pkt.refid = KISS_RATE then some .kodRate
    else none
  else none

/-- `process_pkt`, with the mode that is expected and the packet that was sent. -/
def processPkt (o : Opts α) (e : Env) (d : Datagram) (mode : PktMode) (spkt : Pkt) : PktVerdict :=
  match checkMac o e d with
  | none => .packetUnuseable
  -- With no authentication asked for, a packet without a known key passes.
  | some (some false) => .serverAuthFail
  | some _ =>
    if d.pkt.version < NTP_OLDVERSION ∨ d.pkt.version > NTP_VERSION then .serverUnuseable
    else if d.pkt.mode ≠ mode ∧ d.pkt.mode ≠ .passive then .serverUnuseable
    -- A kiss is acted on before the origin timestamp is looked at.
    else match kissVerdict d.pkt with
      | some v => v
      | none =>
        if d.pkt.leap = .notinsync then .serverUnuseable
        else if mode = .broadcast then .useable d.pkt_len
        -- Before the request is sent its copy, and so this timestamp, is zero.
        else if d.pkt.org ≠ spkt.xmt then .packetUnuseable
        else .useable d.pkt_len

variable [Field α] [LinearOrder α]

/-- `offset_calculation`, the offset. -/
def offsetCalculation (rpkt : Pkt) (tv_dst : Timeval) : α :=
  let t21 : α := lfpToD (rpkt.rec_ - rpkt.org)
  let t34 : α := lfpToD (rpkt.xmt - (tvToTs tv_dst + (BitVec.ofNat 64 JAN_1970 <<< 32)))
  (t21 + t34) / 2

/-- `set_time`: step or slew. -/
def setTime (o : Opts α) (e : Env) (s : State α) (offset : α) : State α :=
  if s.time_adjusted then s
  else if o.step ∧ (!o.slew ∨ |offset| > o.steplimit) then
    { s.log (.setTime offset) with time_adjusted := e.systime }
  else if o.slew then { s.log (.setTime offset) with time_adjusted := e.systime }
  else s

/-- The time a packet arrived; for tests it can be made up. -/
def arrival (o : Opts α) (e : Env) : Timeval :=
  match o.pretend_time with
  | some t => if t = 0 then e.start_cb else { e.start_cb with tv_sec := t }
  | none => e.start_cb

/-- `handle_pkt`. -/
def handlePkt (o : Opts α) (e : Env) (s : State α) (rpktl : PktVerdict) (d : Datagram)
    (host : SockAddr) : State α :=
  match rpktl with
  | .kodDemobilize =>
    { s.log (.addEntry d.sender d.pkt.org d.pkt.refid) with
      kod_db := addEntry s.kod_db (mkEntry (o.stoa host) d.pkt.refid e.time) }
  | .useable _ =>
    let offset := offsetCalculation d.pkt (arrival o e)
    let s := { s.log (.offset d.sender d.pkt.org offset) with time_derived := true }
    -- A made up time of arrival must not set the clock.
    if o.pretend_time.isSome then s
    else if !s.time_adjusted ∧ (o.step ∨ o.slew) then setTime o e s offset
    else s
  | _ => s

/-- The structure a datagram is for, on the list of the socket it came in by. -/
def findSpkt (s : State α) (d : Datagram) : Option Nat :=
  (s.pktsList (d.sender.af == .inet6)).find? (fun ptr => d.sender.sockEq (s.spkt ptr).addr)

/-- A response, one query less. -/
def markDone (o : Opts α) (s : State α) (ptr : Nat) : State α :=
  if !(s.spkt ptr).done ∧ (s.spkt ptr).dctx.ucst then
    (decPendingNtp o s).modify ptr (fun k => { k with done := true })
  else s

/-- `sock_cb` for a datagram. -/
def sockCb (o : Opts α) (e : Env) (s : State α) (d : Datagram) : State α :=
  match findSpkt s d with
  | none => s
  | some ptr =>
    -- The response counts as one even if it is found unusable.
    let rpktl := processPkt o e d .server (s.spkt ptr).x_pkt
    checkExitConditions o (handlePkt o e (markDone o s ptr) rpktl d (s.spkt ptr).addr)

/-- `timeout_query`. -/
def timeoutQuery (o : Opts α) (s : State α) (ptr : Nat) : State α :=
  decPendingNtp o (s.modify ptr (fun k => { k with done := true }))

/-- One turn of the loop of `timeout_queries`. -/
def timeoutTurn (o : Opts α) (e : Env) (s : State α) (ptr : Nat) : State α :=
  -- Not sent yet, or answered.
  if (s.spkt ptr).stime = 0 ∨ (s.spkt ptr).done then s
  else if e.start_cb.tv_sec - (s.spkt ptr).stime > o.response_timeout then timeoutQuery o s ptr
  else s

/-- `timeout_queries`. -/
def timeoutQueries (o : Opts α) (e : Env) (s : State α) : State α :=
  let s := (s.v4_pkts_list ++ s.v6_pkts_list).foldl (timeoutTurn o e) s
  if e.start_cb.tv_sec - s.start_tv > o.response_timeout then { s with shutting_down := true }
  else s

/-- The callbacks of the client. -/
inductive Event where
  | resolved (dctx : DnsCtx) (addrs : List SockAddr)
  | xmtTimer
  | datagram (d : Datagram)
  | timeout
deriving Repr

/-- The client once the lookups are under way, with what was on file. -/
def start (names : Nat) (start_tv : Int) (kod_db : List KodEntry) : State α :=
  { n_pending_dns := names, start_tv := start_tv, kod_db := kod_db }

/-- One callback. -/
def step (o : Opts α) (s : State α) (x : Env × Event) : State α :=
  if s.exited then s
  else match x.2 with
    | .resolved dctx addrs => sntpNameResolved o x.1 s dctx addrs
    | .xmtTimer => xmtTimerCb o x.1 s
    | .datagram d => sockCb o x.1 s d
    | .timeout => timeoutQueries o x.1 s

end Answers

end NtpSuite.Sntp
