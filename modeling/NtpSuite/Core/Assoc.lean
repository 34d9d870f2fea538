import Mathlib

/-!
# Associations and Packets

The data model of the daemon: what a packet carries, what an association
remembers, and the settings and global variables every procedure reads.

The association structure is cut into the groups its own comments name. The
groups are joined by `extends`, so a field is still written `p.aorg` as in
the source, while a statement that a procedure leaves a whole group alone is
one equation, `q.toOnWire = p.toOnWire`. Most of what this development says
about packets that are thrown away has that form.

Words of flag bits are records of booleans, one field per bit. The code only
ever sets, clears and tests single bits of them, and the masks it names are
the disjunctions below (`Flash.pktTest` for `PKT_TEST_MASK`). Timestamps are
64-bit words, seconds above fraction, compared only for equality and for
zero and subtracted modulo 2^64. Quantities the source keeps in doubles
range over an ordered field `α`.

A structure address stands for the pointer to it: `ptr` is the identity of
an association, which an association identifier is not.

## Main definitions

* `Flash`: The error tally bits of an association.
* `PeerFlags`, `CastFlags`, `ResFlags`: The other flag words.
* `Peer`: An association.
* `Pkt`, `RecvBuf`: A packet header and the buffer it arrived in.
* `Cfg`: Build switches and configuration variables.
* `Sys`: The global variables, the association list among them.
-/

namespace NtpSuite

/-- A 64-bit timestamp in the format of `l_fp`. -/
abbrev LFp := BitVec 64

def NTP_VERSION : Nat := 4
def NTP_OLDVERSION : Nat := 1
def NTP_UNREACH : Int := 10
def NTP_MINPOLL : Nat := 3
def NTP_MINDPOLL : Nat := 6
def NTP_MAXDPOLL : Nat := 10
def NTP_MAXPOLL : Nat := 17
def NTP_RETRY : Int := 3
abbrev NTP_SHIFT : Nat := 8
def NTP_IBURST : Int := 6
def RESP_DELAY : Nat := 1
def NTP_MAXKEY : Nat := 65535
def STRATUM_REFCLOCK : Nat := 0
def STRATUM_UNSPEC : Nat := 16
def REFCLK_LOCALCLOCK : Nat := 1
def REFCLK_ACTS : Nat := 18
def REFCLK_ATOM_PPS : Nat := 22
def REFCLK_PALISADE : Nat := 29
def REFCLK_ONCORE : Nat := 30
def LEN_PKT_NOMAC : Nat := 48
def MIN_MAC_LEN : Nat := 4
def MAX_MD5_LEN : Nat := 20
def MAX_MAC_LEN : Nat := 24

/-- The clock filter register has a stage to start from. -/
instance instNeZeroShift : NeZero NTP_SHIFT := ⟨by decide⟩

/-- The numeral two in an ordered field. Named here, the proof is one and the
    same in every module that halves a number. -/
instance instAtLeastTwoTwo : Nat.AtLeastTwo 2 := ⟨le_refl 2⟩

/-- Octets are compared, named for the same reason. -/
instance instLawfulBEqOctet : LawfulBEq (BitVec 8) := inferInstance

/-- A C string, its terminating zero left off. -/
abbrev CStr := List (BitVec 8)

/-- The leap indicator. -/
inductive Leap where
  | nowarning | addsecond | delsecond | notinsync
deriving DecidableEq, Repr

/-- The mode field of a packet. -/
inductive PktMode where
  | unspec | active | passive | client | server | broadcast | control | priv
deriving DecidableEq, Repr

/-- The mode of an association. -/
inductive HMode where
  | active | passive | client | server | broadcast | bclient
deriving DecidableEq, Repr

/-- Selection status of an association, worst first. -/
inductive SelStatus where
  | reject | sane | correct | selcand | synccand | excess | syspeer | pps
deriving DecidableEq, Repr

/-- Address families. -/
inductive AF where
  | unspec | inet | inet6
deriving DecidableEq, Repr

/-- `sockaddr_u`: family, address, port and the IPv6 scope. -/
structure SockAddr where
  af : AF := .inet
  addr : Nat := 0
  port : Nat := 123
  scope : Nat := 0
deriving DecidableEq, Repr

/-- `SOCK_EQ`: the addresses agree, ports left aside. -/
def SockAddr.sockEq (a b : SockAddr) : Bool :=
  a.af == b.af && a.addr == b.addr && (a.af == .inet || a.scope == b.scope)

/-- `ADDR_PORT_EQ`: the addresses and the ports agree. -/
def SockAddr.addrPortEq (a b : SockAddr) : Bool :=
  a.port == b.port && a.sockEq b

/-- `ISREFCLOCKADR`: an address of the form 127.127.t.u names a clock. -/
def SockAddr.isRefclockAdr (a : SockAddr) : Bool :=
  a.af == .inet && a.addr / 2 ^ 16 == 0x7f7f

/-- `REFCLOCKTYPE`: the driver such an address names. -/
def SockAddr.refclockType (a : SockAddr) : Nat :=
  a.addr / 2 ^ 8 % 2 ^ 8

/-- `IS_MCAST`: a multicast address of either family. -/
def SockAddr.isMcast (a : SockAddr) : Bool :=
  match a.af with
  | .inet => a.addr / 2 ^ 28 == 0xe
  | .inet6 => a.addr / 2 ^ 120 == 0xff
  | .unspec => false

/-- A local endpoint, with the flags the protocol module looks at. -/
structure Endpt where
  ifnum : Nat := 0
  mcastopen : Bool := false
  mcastif : Bool := false
  wildcard : Bool := false
  addr_refid : BitVec 32 := 0
deriving DecidableEq, Repr

/-- The flash word: `TEST1` to `TEST9` are packet errors, the others are peer errors. -/
structure Flash where
  test1 : Bool := false
  test2 : Bool := false
  test3 : Bool := false
  test4 : Bool := false
  test5 : Bool := false
  test6 : Bool := false
  test7 : Bool := false
  test8 : Bool := false
  test9 : Bool := false
  test10 : Bool := false
  test11 : Bool := false
  test12 : Bool := false
  test13 : Bool := false
deriving DecidableEq, Repr

/-- Some bit of `PKT_TEST_MASK` is lit. -/
def Flash.pktTest (f : Flash) : Bool :=
  f.test1 || f.test2 || f.test3 || f.test4 || f.test5 || f.test6 || f.test7 || f.test8 || f.test9

/-- Some bit of `PEER_TEST_MASK` is lit. -/
def Flash.peerTest (f : Flash) : Bool :=
  f.test10 || f.test11 || f.test12 || f.test13

/-- `flash &= ~PKT_TEST_MASK`. -/
def Flash.clearPkt (f : Flash) : Flash :=
  { test10 := f.test10, test11 := f.test11, test12 := f.test12, test13 := f.test13 }

/-- `peer->flags`. -/
structure PeerFlags where
  config : Bool := false
  preempt : Bool := false
  authentic : Bool := false
  refclock : Bool := false
  bc_vol : Bool := false
  prefer : Bool := false
  burst : Bool := false
  pps : Bool := false
  iburst : Bool := false
  noselect : Bool := false
  truechimer : Bool := false
  skey : Bool := false
  xleave : Bool := false
  xb : Bool := false
  xbogus : Bool := false
  assoc : Bool := false
deriving DecidableEq, Repr

/-- `peer->cast_flags`. -/
structure CastFlags where
  ucast : Bool := false
  mcast : Bool := false
  bcast : Bool := false
  pool : Bool := false
  acast : Bool := false
  bclnt : Bool := false
  uclnt : Bool := false
deriving DecidableEq, Repr

/-- The restrict mask, less the bits only mode 6 and 7 look at. -/
structure ResFlags where
  ignore : Bool := false
  dontserve : Bool := false
  donttrust : Bool := false
  version : Bool := false
  nopeer : Bool := false
  limited : Bool := false
  noquery : Bool := false
  kod : Bool := false
  mssntp : Bool := false
  flake : Bool := false
deriving DecidableEq, Repr

/-- The on-wire protocol variables. -/
structure OnWire where
  rec_ : LFp := 0
  xmt : LFp := 0
  dst : LFp := 0
  aorg : LFp := 0
  borg : LFp := 0
  flip : Int := 0
deriving DecidableEq, Repr

/-- The variables of the poll process. -/
structure PollVars where
  hpoll : Nat := 0
  minpoll : Nat := 0
  maxpoll : Nat := 0
  ppoll : Nat := 0
  burst : Int := 0
  retry : Int := 0
  throttle : Int := 0
  nextdate : Nat := 0
deriving DecidableEq, Repr

/-- What an association keeps of its reachability. -/
structure Reach where
  reach : BitVec 8 := 0
  unreach : Int := 0
  outdate : Nat := 0
deriving DecidableEq, Repr

/-- The variables set by a received packet, `ppoll` apart. -/
structure Header (α : Type) [Zero α] where
  leap : Leap := .nowarning
  pmode : PktMode := .unspec
  stratum : Nat := 0
  precision : Int := 0
  rootdelay : α := 0
  rootdisp : α := 0
  refid : BitVec 32 := 0
  reftime : LFp := 0
deriving DecidableEq, Repr

/-- `struct autokey`: the last autokey values received. -/
structure Autokey where
  key : Nat := 0
  seq : Int := 0
deriving DecidableEq, Repr

/-- The variables of the authentication and Autokey protocols. A pointer to
    data of the Autokey module is kept only as far as it is tested. -/
structure Crypto where
  keyid : Nat := 0
  crypto : BitVec 32 := 0
  pkeyid : Nat := 0
  pcookie : Nat := 0
  recval : Option Autokey := none
  cmmd : Bool := false
  refresh : Nat := 0
deriving DecidableEq, Repr

/-- The clock filter and the statistics it leaves behind. -/
structure Filter (α : Type) [Zero α] where
  filter_nextpt : Fin NTP_SHIFT := 0
  filter_delay : Vector α NTP_SHIFT := .replicate NTP_SHIFT 0
  filter_offset : Vector α NTP_SHIFT := .replicate NTP_SHIFT 0
  filter_disp : Vector α NTP_SHIFT := .replicate NTP_SHIFT 0
  filter_epoch : Vector Nat NTP_SHIFT := .replicate NTP_SHIFT 0
  filter_order : Vector Nat NTP_SHIFT := .replicate NTP_SHIFT 0
  epoch : Nat := 0
  offset : α := 0
  delay : α := 0
  jitter : α := 0
  disp : α := 0
  bias : α := 0
  update : Nat := 0
deriving DecidableEq, Repr

/-- Event and statistics counters. -/
structure Counters where
  last_event : Nat := 0
  num_events : Nat := 0
  timereceived : Nat := 0
  timereachable : Nat := 0
  sent : Nat := 0
  received : Nat := 0
  processed : Nat := 0
  badauth : Nat := 0
  bogusorg : Nat := 0
  oldpkt : Nat := 0
  seldisptoolarge : Nat := 0
  selbroken : Nat := 0
deriving DecidableEq, Repr

/-- An association. -/
structure Peer (α : Type) [Zero α] extends
    OnWire, PollVars, Reach, Header α, Crypto, Filter α, Counters where
  ptr : Nat := 0
  srcadr : SockAddr := {}
  hostname : Option CStr := none
  dstadr : Option Endpt := none
  associd : Nat := 0
  version : Nat := 0
  hmode : HMode := .client
  flags : PeerFlags := {}
  cast_flags : CastFlags := {}
  ttl : Nat := 0
  ident : Option CStr := none
  refclktype : Nat := 0
  status : SelStatus := .reject
  new_status : SelStatus := .reject
  flash : Flash := {}
deriving DecidableEq, Repr

/-- The header of a packet, multi-octet fields already in host order. -/
structure Pkt where
  li_vn_mode : BitVec 8 := 0
  stratum : BitVec 8 := 0
  ppoll : BitVec 8 := 0
  precision : Int := 0
  rootdelay : BitVec 32 := 0
  rootdisp : BitVec 32 := 0
  refid : BitVec 32 := 0
  reftime : LFp := 0
  org : LFp := 0
  rec_ : LFp := 0
  xmt : LFp := 0
deriving DecidableEq, Repr

/-- `PKT_MODE`. -/
def Pkt.mode (pkt : Pkt) : PktMode :=
  match (pkt.li_vn_mode &&& 7).toNat with
  | 0 => .unspec
  | 1 => .active
  | 2 => .passive
  | 3 => .client
  | 4 => .server
  | 5 => .broadcast
  | 6 => .control
  | _ => .priv

/-- `PKT_VERSION`. -/
def Pkt.version (pkt : Pkt) : Nat :=
  (pkt.li_vn_mode >>> 3 &&& 7).toNat

/-- `PKT_LEAP`. -/
def Pkt.leap (pkt : Pkt) : Leap :=
  match (pkt.li_vn_mode >>> 6).toNat with
  | 0 => .nowarning
  | 1 => .addsecond
  | 2 => .delsecond
  | _ => .notinsync

/-- `PKT_TO_STRATUM`: zero on the wire is sixteen inside. -/
def Pkt.toStratum (pkt : Pkt) : Nat :=
  if pkt.stratum = 0 then STRATUM_UNSPEC else pkt.stratum.toNat

/-- The reference identifier `"RATE"` of a kiss-o'-death. -/
def KISS_RATE : BitVec 32 := 0x52415445

/-- A receive buffer. `exten` is the content of the buffer past the header,
    as words in host order: extension fields and MAC. -/
structure RecvBuf where
  recv_srcadr : SockAddr := {}
  dstadr : Endpt := {}
  recv_time : LFp := 0
  recv_length : Int := 48
  recv_pkt : Pkt := {}
  exten : List (BitVec 32) := []
deriving DecidableEq, Repr

/-- The word at index `i` of the buffer, for an index past the header. -/
def RecvBuf.word (rb : RecvBuf) (i : Nat) : BitVec 32 :=
  rb.exten.getD (i - LEN_PKT_NOMAC / 4) 0

/-- Build switches, configuration variables and the square root of the mathematical library. -/
structure Cfg (α : Type) where
  autokey : Bool
  refclock : Bool
  signd : Bool
  sys_authenticate : Bool
  sys_bclient : Bool
  sys_bdelay : α
  sys_manycastserver : Bool
  sys_cohort : Bool
  ntp_mode7 : Bool
  mode_ntpdate : Bool
  crypto_flags : Bool
  sys_groupname : Option CStr
  sys_ident : Option CStr
  sys_floor : Int
  sys_ceiling : Int
  sys_minsane : Int
  sys_minclock : Int
  sys_maxclock : Int
  sys_orphan : Int
  sys_orphwait : Int
  sys_beacon : Int
  sys_ttlmax : Nat
  ntp_minpkt : Int
  sys_precision : Int
  sys_mindisp : α
  sys_maxdist : α
  clock_phi : α
  sqrt : α → α

/-- The arguments of `newpeer`. -/
structure NewPeer where
  srcadr : SockAddr
  hostname : Option CStr := none
  dstadr : Option Endpt
  hmode : HMode
  version : Nat
  minpoll : Nat
  maxpoll : Nat
  flags : PeerFlags
  cast_flags : CastFlags
  ttl : Nat := 0
  key : Nat
  ident : Option CStr
deriving DecidableEq, Repr

/-- Calls worth recording: packets sent and associations asked for. -/
inductive Call where
  | fastXmit (xmode : PktMode) (xkeyid : Nat)
  | sendpkt (ptr : Nat) (xmt : LFp)
  | newpeer (a : NewPeer)
  | processPrivate
  | processControl
deriving DecidableEq, Repr

/-- The statistics counters of the protocol module. -/
structure SysCounters where
  sys_received : Nat := 0
  sys_processed : Nat := 0
  sys_newversion : Nat := 0
  sys_oldversion : Nat := 0
  sys_restricted : Nat := 0
  sys_badlength : Nat := 0
  sys_badauth : Nat := 0
  sys_declined : Nat := 0
  sys_limitrejected : Nat := 0
deriving DecidableEq, Repr

/-- The global variables. `peer_list` holds the live associations, the most recent first.
    `peer_free` is the list of freed structures, which are used again before a new one is taken at
    the address `alloc`. `trace` is the calls made so far, the last one first. -/
structure Sys (α : Type) [Zero α] extends SysCounters where
  current_time : Nat := 0
  initializing : Bool := false
  peer_list : List (Peer α) := []
  alloc : Nat := 1
  current_association_ID : Nat := 1
  peer_associations : Int := 0
  peer_ntpdate : Int := 0
  sys_peer : Option Nat := none
  sys_leap : Leap := .notinsync
  sys_stratum : Nat := 16
  sys_refid : BitVec 32 := 0
  sys_rootdelay : α := 0
  sys_rootdisp : α := 0
  sys_reftime : LFp := 0
  sys_poll : Nat := 3
  sys_offset : α := 0
  sys_jitter : α := 0
  sys_epoch : Nat := 0
  sys_clockhop : α := 0
  sys_survivors : Int := 0
  leap_vote : Int := 0
  orphwait : Nat := 0
  freq_cnt : Int := 0
  allan_xpt : Int := 11
  peer_free : List Nat := []
  exited : Bool := false
  trace : List Call := []
deriving DecidableEq, Repr

/-- What `crypto_recv` returns and what it leaves in the association: a result code, the Autokey
    variables, and whether a verified signature cleared `TEST8`. -/
structure CryptoRecv where
  ok : Bool
  err : Bool
  crypto : Crypto
  clears8 : Bool

/-- The result of `local_clock`: its return code, the system poll exponent
    it leaves, and whether it called `poll_update` on the peer. -/
structure LocalClock where
  rval : Int
  sys_poll : Nat
  polled : Bool

/-- What one call of the daemon learns from outside the modelled code: random numbers (by call
    site), the clock, the interface list, access control, the key store, the Autokey module, the
    reference clock drivers and the clock discipline. -/
structure Env (α : Type) [Zero α] where
  ntp_random : Nat → Nat
  xmt_tx : LFp
  xmt_ty : LFp
  findinterface : SockAddr → Option Endpt
  addr2refid6 : Nat → BitVec 32
  select_peerinterface : SockAddr → Option Endpt → Option Endpt
  restrictions : SockAddr → ResFlags
  ntp_monitor : ResFlags → ResFlags
  authdecrypt : Nat → Nat → Nat → Bool
  authencrypt : Nat → Nat
  session_key : Nat → Nat → Nat
  sys_private : Nat
  xkeyid : Nat
  crypto_recv : Peer α → CryptoRecv
  clock_start : Nat → Option (Header α)
  pool_addr : Bool
  local_clock : Peer α → LocalClock

section PeerList

variable {α : Type} [Zero α]

/-- The association at an address. -/
def Sys.peer? (s : Sys α) (ptr : Nat) : Option (Peer α) :=
  s.peer_list.find? (fun p => p.ptr == ptr)

/-- The structure at an address. A freed structure is all zeros. -/
def Sys.deref (s : Sys α) (ptr : Nat) : Peer α :=
  (s.peer? ptr).getD { ptr := ptr }

/-- An association as it is now. -/
def Sys.reload (s : Sys α) (p : Peer α) : Peer α :=
  (s.peer? p.ptr).getD p

/-- Write an association back to its place. -/
def Sys.setPeer (s : Sys α) (p : Peer α) : Sys α :=
  { s with peer_list := s.peer_list.map (fun q => if q.ptr = p.ptr then p else q) }

/-- Take an association off the list. -/
def Sys.erasePeer (s : Sys α) (ptr : Nat) : Sys α :=
  { s with peer_list := s.peer_list.filter (fun q => q.ptr ≠ ptr) }

/-- Record a call. -/
def Sys.log (s : Sys α) (c : Call) : Sys α :=
  { s with trace := c :: s.trace }

end PeerList

end NtpSuite
