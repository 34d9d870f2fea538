import NtpSuite.Core.Exten
import NtpSuite.Lib.Buffer

/-!
# Control Messages

The requests of mode 6 and their responses. `process_control` checks the header of
a request, finds out if it is authenticated and looks for the function that
answers it. That function puts its data into the response with `ctl_putdata`,
which sends what there is so far when it finds no room for more, and
`ctl_flushpkt` sends the rest.

The text of a response is a list of items with a comma between them. The response
is padded to a multiple of four octets, or eight octets if an authenticator
follows.

`rpkt.u.data` is a buffer without an end whose writes are recorded. Pointers to it
are offsets.

## Main definitions

* `CtlSys`: The static variables.
* `processControl`: A request.
* `ctlFlushpkt`, `ctlPutdata`, `ctlPutstr`, `ctlPutunqstr`: The response.
* `ctlStep`: What happens to the variables.
-/

namespace NtpSuite.Control

open Reading

def CTL_HEADER_LEN : Nat := 12
def CTL_MAX_DATA_LEN : Nat := 468
def MAXDATALINELEN : Nat := 72
def CTL_RESPONSE : BitVec 8 := 0x80
def CTL_ERROR : BitVec 8 := 0x40
def CTL_MORE : BitVec 8 := 0x20
def CTL_OP_MASK : BitVec 8 := 0x1f
def MODE_CONTROL : BitVec 8 := 6
def NTP_MAXEXTEN : Nat := 2048
def EVP_MAX_MD_SIZE : Nat := 64

/-- The octets of `rpkt.u.data`. -/
def CTL_DATA_SIZE : Nat := 480 + MAX_MAC_LEN

/-- The octets of a text. -/
def octets (s : String) : CStr := s.toList.map fun c => BitVec.ofNat 8 c.toNat

/-- `htons`, as octets. -/
def htons (x : BitVec 16) : CStr := [(x >>> 8).setWidth 8, x.setWidth 8]

/-- `PKT_LI_VN_MODE`. -/
def pktLiVnMode (li vn md : BitVec 8) : BitVec 8 :=
  ((li <<< 6) &&& 0xc0) ||| ((vn <<< 3) &&& 0x38) ||| (md &&& 0x7)

/-- The codes of errors. -/
inductive CtlErr where
  | unspec
  | permission
  | badfmt
  | badop
  | badassoc
  | unknownvar
  | badvalue
  | restricted
deriving DecidableEq, Repr

def CtlErr.toNat : CtlErr → Nat
  | .unspec => 0
  | .permission => 1
  | .badfmt => 2
  | .badop => 3
  | .badassoc => 4
  | .unknownvar => 5
  | .badvalue => 6
  | .restricted => 7

/-- The operations. -/
inductive CtlOp where
  | unspec
  | readstat
  | readvar
  | writevar
  | readclock
  | writeclock
  | settrap
  | configure
  | saveconfig
  | readMru
  | readOrdlist
  | reqNonce
  | unsettrap
deriving DecidableEq, Repr

/-- The loop over `control_codes`. -/
def CtlOp.ofCode (code : BitVec 8) : Option CtlOp :=
  match code.toNat with
  | 0 => some .unspec
  | 1 => some .readstat
  | 2 => some .readvar
  | 3 => some .writevar
  | 4 => some .readclock
  | 5 => some .writeclock
  | 6 => some .settrap
  | 8 => some .configure
  | 9 => some .saveconfig
  | 10 => some .readMru
  | 11 => some .readOrdlist
  | 12 => some .reqNonce
  | 31 => some .unsettrap
  | _ => none

/-- The flag `AUTH`. -/
def CtlOp.auth : CtlOp → Bool
  | .writevar | .configure | .saveconfig | .readOrdlist => true
  | _ => false

/-- The header of a control message. -/
structure CtlHdr where
  li_vn_mode : BitVec 8 := 0
  r_m_e_op : BitVec 8 := 0
  sequence : BitVec 16 := 0
  status : BitVec 16 := 0
  associd : BitVec 16 := 0
  offset : BitVec 16 := 0
  count : BitVec 16 := 0
deriving DecidableEq, Repr

def CtlHdr.encode (h : CtlHdr) : CStr :=
  [h.li_vn_mode, h.r_m_e_op] ++ htons h.sequence ++ htons h.status ++ htons h.associd ++
    htons h.offset ++ htons h.count

/-- The header of a message in memory. -/
def CtlHdr.read (m : Memory) : CtlHdr where
  li_vn_mode := m 0
  r_m_e_op := m 1
  sequence := m 2 ++ m 3
  status := m 4 ++ m 5
  associd := m 6 ++ m 7
  offset := m 8 ++ m 9
  count := m 10 ++ m 11

/-- A trap. -/
structure CtlTrap where
  inuse : Bool
  tr_version : BitVec 8
  tr_sequence : BitVec 16
deriving DecidableEq, Repr

/-- What the control messages take from elsewhere: the leap indicator, if there is authentication,
    the key for requests that need it, and the functions that use keys. `authencrypt` returns the
    length of the authenticator and what follows the key identifier in it. That is a digest of the
    packet, which for a key has always the same number of octets. -/
structure CtlEnv where
  sys_leap : BitVec 8
  sys_authenticate : Bool
  ctl_auth_keyid : BitVec 32
  authistrusted : BitVec 32 → Bool
  authdecrypt : BitVec 32 → CStr → CStr → Bool
  authencrypt : BitVec 32 → CStr → Nat × CStr
  digestsize : BitVec 32 → Nat
  length_digest : ∀ keyid pkt, (authencrypt keyid pkt).2.length = digestsize keyid
  digestsize_le : ∀ keyid, digestsize keyid ≤ EVP_MAX_MD_SIZE

/-- The static variables and the packets that were sent. `stopped` says that the
    process was ended by an assertion. -/
structure CtlSys where
  rpkt : CtlHdr := {}
  data : Buffer
  res_opcode : BitVec 8 := 0
  res_associd : BitVec 16 := 0
  res_frags : Nat := 0
  res_offset : Nat := 0
  datapt : Nat := 0
  datalinelen : Nat := 0
  datanotbinflag : Bool := false
  res_authenticate : Bool := false
  res_authokay : Bool := false
  res_keyid : BitVec 32 := 0
  res_async : Bool := false
  ctl_traps : List CtlTrap := []
  sent : List CStr := []
  stopped : Bool := false

namespace CtlSys

/-- Octets are written where `datapt` points to. -/
def put (s : CtlSys) (bs : CStr) : CtlSys :=
  { s with data := s.data.put s.datapt bs, datapt := s.datapt + bs.length }

/-- `sendpkt`, for a packet of so many octets. -/
def send (s : CtlSys) (len : Nat) : CtlSys :=
  { s with sent := s.sent ++ [s.rpkt.encode ++ octetsAt s.data.mem 0 (len - CTL_HEADER_LEN)] }

/-- `authencrypt` for a packet whose data ends at an offset, and `sendpkt`. -/
def sendMac (s : CtlSys) (env : CtlEnv) (off : Nat) : CtlSys :=
  let pkt := s.rpkt.encode ++ octetsAt s.data.mem 0 off
  let r := env.authencrypt s.res_keyid pkt
  let data := (s.data.put off (Exten.htonl s.res_keyid)).put (off + 4) r.2
  { s with data := data }.send (CTL_HEADER_LEN + off + r.1)

/-- The response is to be authenticated. -/
def authenticates (s : CtlSys) (env : CtlEnv) : Bool := s.res_authenticate && env.sys_authenticate

end CtlSys

/-- `ctl_error`. -/
def ctlError (env : CtlEnv) (errcode : CtlErr) (s : CtlSys) : CtlSys :=
  let s := { s with
    rpkt := { s.rpkt with
      r_m_e_op := CTL_RESPONSE ||| CTL_ERROR ||| (s.res_opcode &&& CTL_OP_MASK)
      status := BitVec.ofNat 16 (errcode.toNat * 2 ^ 8)
      count := 0 } }
  if s.authenticates env then s.sendMac env 0 else s.send CTL_HEADER_LEN

/-! ### Requests -/

/-- The octets of `recv_space`: the larger one of `struct pkt`, which has an area
    for extension fields if there is Autokey, and `RX_BUFF_SIZE`. -/
def recvSpace (autokey : Bool) : Nat :=
  max (LEN_PKT_NOMAC + (if autokey then NTP_MAXEXTEN else 4) + MAX_MAC_LEN) 1000

/-- A request in a buffer. -/
structure CtlRecv (autokey : Bool) where
  mem : Memory
  recv_length : Nat
  length_le : recv_length ≤ recvSpace autokey

namespace CtlRecv

variable {autokey : Bool}

def hdr (rb : CtlRecv autokey) : CtlHdr := CtlHdr.read rb.mem

/-- `PKT_VERSION`. -/
def version (rb : CtlRecv autokey) : BitVec 8 := (rb.hdr.li_vn_mode >>> 3) &&& 0x7

/-- `req_count`. -/
def reqCount (rb : CtlRecv autokey) : Nat := rb.hdr.count.toNat

/-- The request is too short for a header, it is a response, a fragment or an error,
    or it is of another version. -/
def ignored (rb : CtlRecv autokey) : Bool :=
  decide (rb.recv_length < CTL_HEADER_LEN)
    || (CTL_RESPONSE ||| CTL_MORE ||| CTL_ERROR) &&& rb.hdr.r_m_e_op != 0
    || rb.hdr.offset != 0
    || decide (rb.version.toNat > NTP_VERSION) || decide (rb.version.toNat < NTP_OLDVERSION)

/-- There is less data than the request says, or its length is not a multiple of four. -/
def badLength (rb : CtlRecv autokey) : Bool :=
  decide (rb.recv_length - CTL_HEADER_LEN < rb.reqCount) || rb.recv_length % 4 != 0

/-- `properlen`: where an authenticator begins. -/
def properlen (rb : CtlRecv autokey) : Nat := (rb.reqCount + CTL_HEADER_LEN + 7) / 8 * 8

/-- What follows has the length of an authenticator, and there is authentication. -/
def wantsAuth (rb : CtlRecv autokey) (env : CtlEnv) : Bool :=
  decide (rb.properlen + MIN_MAC_LEN ≤ rb.recv_length)
    && decide (rb.recv_length ≤ rb.properlen + MAX_MAC_LEN) && env.sys_authenticate

/-- The key identifier of the authenticator. -/
def keyid (rb : CtlRecv autokey) : BitVec 32 := wordAt rb.mem rb.properlen

/-- The authenticator is that of the request. -/
def decrypts (rb : CtlRecv autokey) (env : CtlEnv) : Bool :=
  env.authdecrypt rb.keyid (octetsAt rb.mem 0 rb.properlen)
    (octetsAt rb.mem rb.properlen (rb.recv_length - rb.properlen))

end CtlRecv

section Process

variable {autokey : Bool}

/-- The variables for a request. -/
def setUp (env : CtlEnv) (rb : CtlRecv autokey) (s : CtlSys) : CtlSys :=
  { s with
    rpkt := { s.rpkt with
      li_vn_mode := pktLiVnMode env.sys_leap rb.version MODE_CONTROL
      sequence := rb.hdr.sequence
      associd := rb.hdr.associd
      status := 0 }
    res_opcode := rb.hdr.r_m_e_op
    res_frags := 1
    res_offset := 0
    res_associd := rb.hdr.associd
    res_async := false
    res_authenticate := false
    res_keyid := 0
    res_authokay := false
    datanotbinflag := false
    datalinelen := 0
    datapt := 0 }

/-- The authenticator of a request. A key that is not trusted is used for the
    response all the same. -/
def checkAuth (env : CtlEnv) (rb : CtlRecv autokey) (s : CtlSys) : CtlSys :=
  if rb.wantsAuth env then
    let s := { s with res_authenticate := true, res_keyid := rb.keyid }
    if !env.authistrusted rb.keyid then s
    else if rb.decrypts env then { s with res_authokay := true }
    else { s with res_keyid := 0 }
  else s

/-- The request may use an operation. -/
def permitted (env : CtlEnv) (s : CtlSys) (op : CtlOp) : Bool :=
  !(op.auth && (!s.res_authokay || s.res_keyid != env.ctl_auth_keyid))

/-- `process_control`: the variables, and the operation whose function is called. -/
def processControl (env : CtlEnv) (rb : CtlRecv autokey) (s : CtlSys) : CtlSys × Option CtlOp :=
  if rb.ignored then (s, none)
  else
    let s := setUp env rb s
    if rb.badLength then (ctlError env .badfmt s, none)
    else
      let s := checkAuth env rb s
      match CtlOp.ofCode s.res_opcode with
      | none => (ctlError env .badop s, none)
      | some op => if permitted env s op then (s, some op) else (ctlError env .permission s, none)

end Process

/-! ### Responses -/

/-- The zeros that are missing to a multiple of `k`. -/
def padding (len k : Nat) : CStr := List.replicate ((k - len % k) % k) 0

/-- A packet goes to every trap. -/
def sendTraps (env : CtlEnv) (more : Bool) (sendlen : Nat) (s : CtlSys) : CtlSys :=
  let s := s.ctl_traps.foldl (fun s t =>
    if t.inuse then
      { s with rpkt := { s.rpkt with
          li_vn_mode := pktLiVnMode env.sys_leap t.tr_version MODE_CONTROL
          sequence := t.tr_sequence } }.send sendlen
    else s) s
  { s with ctl_traps := s.ctl_traps.map fun t =>
      if t.inuse && !more then { t with tr_sequence := t.tr_sequence + 1 } else t }

/-- The trailing CR LF. -/
def trail (more : Bool) (s : CtlSys) : CtlSys :=
  if !more && s.datanotbinflag && decide (s.datapt + 2 < CTL_MAX_DATA_LEN) then
    s.put [0x0d, 0x0a]
  else s

/-- The header, for so many octets of data. -/
def fillIn (more : Bool) (dlen : Nat) (s : CtlSys) : CtlSys :=
  { s with rpkt := { s.rpkt with
      r_m_e_op := CTL_RESPONSE ||| (if more then CTL_MORE else 0) |||
        (s.res_opcode &&& CTL_OP_MASK)
      count := BitVec.ofNat 16 dlen
      offset := BitVec.ofNat 16 s.res_offset } }

/-- The packet is sent, with an authenticator that begins at a multiple of eight octets. -/
def sendAuth (env : CtlEnv) (s : CtlSys) : CtlSys :=
  let s := s.put (padding (CTL_HEADER_LEN + s.datapt) 8)
  let s := { s with data := s.data.put s.datapt (Exten.htonl s.res_keyid) }
  s.sendMac env s.datapt

/-- The packet is sent, to the traps or to the one who asked. -/
def sendOut (env : CtlEnv) (more : Bool) (s : CtlSys) : CtlSys :=
  if s.res_async then sendTraps env more (CTL_HEADER_LEN + s.datapt) s
  else if s.authenticates env then sendAuth env s
  else s.send (CTL_HEADER_LEN + s.datapt)

/-- `ctl_flushpkt`. -/
def ctlFlushpkt (env : CtlEnv) (more : Bool) (s : CtlSys) : CtlSys :=
  let s := trail more s
  let dlen := s.datapt
  let s := s.put (padding (CTL_HEADER_LEN + dlen) 4)
  let s := sendOut env more (fillIn more dlen s)
  { s with res_frags := s.res_frags + 1, res_offset := s.res_offset + dlen, datapt := 0 }

/-- What stands between two items: a comma and a new line, or a comma and a blank if
    the next item fits into the line. -/
def separate (dlen : Nat) (s : CtlSys) : CtlSys :=
  if s.datapt ≠ 0 then
    if dlen + (s.datalinelen + 1) + 1 ≥ MAXDATALINELEN then
      { s.put [0x2c, 0x0d, 0x0a] with datalinelen := 0 }
    else { s.put [0x2c, 0x20] with datalinelen := s.datalinelen + 2 }
  else s

/-- `ctl_putdata`. -/
def ctlPutdata (env : CtlEnv) (dp : CStr) (bin : Bool) (s : CtlSys) : CtlSys :=
  let dlen := dp.length
  let overhead := if bin then 0 else 3
  let s := if bin then s else separate dlen { s with datanotbinflag := true }
  let s := if dlen + overhead + s.datapt > CTL_MAX_DATA_LEN then ctlFlushpkt env true s else s
  let s := s.put dp
  { s with datalinelen := s.datalinelen + dlen }

/-- The item of a tagged string in a local buffer of 512 octets, with what stands
    before and behind the data. The assertion is about its length. -/
def putTagged (env : CtlEnv) (before behind tag data : CStr) (s : CtlSys) : CtlSys :=
  if data.length > 0 then
    if tag.length + (before.length + behind.length) + data.length ≤ 512 then
      ctlPutdata env (tag ++ before ++ data ++ behind) false s
    else { s with stopped := true }
  else ctlPutdata env tag false s

/-- `ctl_putstr`: `tag="data"`. -/
def ctlPutstr (env : CtlEnv) : CStr → CStr → CtlSys → CtlSys :=
  putTagged env [0x3d, 0x22] [0x22]

/-- `ctl_putunqstr`: `tag=data`. -/
def ctlPutunqstr (env : CtlEnv) : CStr → CStr → CtlSys → CtlSys := putTagged env [0x3d] []

/-- What a function that answers a request calls. -/
inductive CtlCall where
  | putdata (dp : CStr) (bin : Bool)
  | putstr (tag data : CStr)
  | putunqstr (tag data : CStr)
  | flushpkt
  | error (errcode : CtlErr)

def ctlCall (env : CtlEnv) (s : CtlSys) : CtlCall → CtlSys
  | .putdata dp bin => ctlPutdata env dp bin s
  | .putstr tag data => ctlPutstr env tag data s
  | .putunqstr tag data => ctlPutunqstr env tag data s
  | .flushpkt => ctlFlushpkt env false s
  | .error errcode => ctlError env errcode s

/-- `report_event` begins a message for the traps. -/
def reportEvent (associd status : BitVec 16) (s : CtlSys) : CtlSys :=
  { s with
    res_opcode := 7
    res_offset := 0
    res_async := true
    res_authenticate := false
    datapt := 0
    rpkt := { s.rpkt with associd := associd, status := status } }

/-- What happens to the static variables: a request, a message for the traps, or a
    call of the function that puts a message together. -/
inductive CtlEvent (autokey : Bool) where
  | recv (rb : CtlRecv autokey)
  | report (associd status : BitVec 16)
  | call (c : CtlCall)

def ctlStep {autokey : Bool} (env : CtlEnv) (s : CtlSys) (e : CtlEvent autokey) : CtlSys :=
  if s.stopped then s
  else
    match e with
    | .recv rb => (processControl env rb s).1
    | .report associd status => reportEvent associd status s
    | .call c => ctlCall env s c

end NtpSuite.Control
